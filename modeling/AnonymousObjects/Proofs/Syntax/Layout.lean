import AnonymousObjects.Proofs.Syntax.Documents
import AnonymousObjects.Proofs.Syntax.Lexing
import AnonymousObjects.Proofs.Syntax.Locations
import AnonymousObjects.Proofs.Syntax.Relocation
import AnonymousObjects.Text.NameTable

/-!
# Layout does not matter

Blanks and comments may be inserted at either end of any token of a program. The text stays a
program, which differs from the one before in positions only: each of them is that of the token
which it was before, at its place in the new text (`Program.parse_layout`).
-/

namespace AnonymousObjects

namespace Position

variable {p q r : Position} {cs xs ys xs' ys' : List Char}

/-- Where a position behind `p` comes to when `p` is moved to `q`: on the line of `p` the column
changes with that of `p`, on later lines it stays. -/
def rebase (p q r : Position) : Position :=
  if r.line = p.line then ⟨q.line, q.column + (r.column - p.column)⟩
  else ⟨q.line + (r.line - p.line), r.column⟩

/-- Positions can be compared. -/
instance (p q : Position) : Decidable (p.Before q) :=
  inferInstanceAs (Decidable (_ ∨ _))

/-- Where a position comes to when a text is inserted at `p`. -/
def shift (p : Position) (ins : List Char) (r : Position) : Position :=
  if r.Before p then r else rebase p (p.after ins) r

/-- A text moves a position forward. -/
theorem upTo_after (p : Position) (cs : List Char) : p.UpTo (p.after cs) := by
  induction cs generalizing p with
  | nil => exact .refl p
  | cons c cs ih => exact (p.before_next c).upTo.trans (ih (p.next c))

/-- A text takes up room. -/
theorem before_after (p : Position) (h : cs ≠ []) : p.Before (p.after cs) := by
  cases cs with
  | nil => exact absurd rfl h
  | cons c cs => exact (p.before_next c).trans_upTo ((p.next c).upTo_after cs)

/-- A place in a text comes after one piece of it only. -/
theorem eq_of_after_eq (h : xs ++ ys = xs' ++ ys') (hp : p.after xs = p.after xs') : xs = xs' := by
  have hirrefl : ∀ q : Position, ¬ q.Before q := fun q hq => by
    unfold Before at hq
    omega
  have hnil : ∀ zs : List Char, ∀ q : Position, q = q.after zs → zs = [] := by
    intro zs q hq
    by_contra hne
    have hbefore := q.before_after hne
    rw [← hq] at hbefore
    exact hirrefl q hbefore
  rcases List.append_eq_append_iff.mp h with ⟨zs, rfl, -⟩ | ⟨zs, rfl, -⟩
  · rw [after_append] at hp
    simp [hnil zs _ hp]
  · rw [after_append] at hp
    simp [hnil zs _ hp.symm]

/-- A position is not after one that comes up to it. -/
theorem not_before_of_upTo (h : p.UpTo r) : ¬ r.Before p := by
  unfold UpTo Before at *
  rcases h with rfl | h <;> omega

/-- Moving a position over a character and to another base can be done in either order. -/
theorem rebase_next (q : Position) (h : p.UpTo r) (c : Char) :
    rebase p q (r.next c) = (rebase p q r).next c := by
  have hline : p.line ≤ r.line ∧ (r.line = p.line → p.column ≤ r.column) := by
    unfold UpTo Before at h
    rcases h with rfl | h <;> omega
  by_cases hc : c = '\n'
  · by_cases hsame : r.line = p.line
    · simp [rebase, next, hc, hsame]
    · have hlater : r.line + 1 ≠ p.line := by omega
      simp only [rebase, next, hc, hsame, hlater, if_true, if_false, mk.injEq, and_true]
      omega
  · by_cases hsame : r.line = p.line
    · have hcolumn := hline.2 hsame
      simp only [rebase, next, hc, hsame, if_true, if_false, mk.injEq, true_and]
      omega
    · simp [rebase, next, hc, hsame]

/-- What is behind `p` is moved as if it had been behind `q`. -/
theorem rebase_after (p q : Position) (cs : List Char) : rebase p q (p.after cs) = q.after cs := by
  induction cs using List.reverseRecOn with
  | nil => simp [rebase]
  | append_singleton cs c ih =>
      rw [after_append, after_append, ← ih]
      exact rebase_next q (p.upTo_after cs) c

/-- What comes after an insertion is shifted by the inserted text. -/
theorem shift_after (p : Position) (ins cs : List Char) :
    shift p ins (p.after cs) = (p.after ins).after cs := by
  rw [shift, if_neg (not_before_of_upTo (p.upTo_after cs)), rebase_after]

end Position

namespace Syntax

variable {v : Vocabulary} {cs xs ys ins rest : List Char} {t : Token} {ts us : List Token}

/-! ## Rows that are moved -/

namespace Reads

variable {f : Position → Position} {p q : Position}

/-- The tokens of a row start before its end. -/
theorem before_after (h : Reads v rest p cs ts) : ∀ t ∈ ts, t.position.Before (p.after cs) := by
  induction h with
  | layout => simp
  | token p gap t cs ts hgap hposition hspelled hquoted hends hreads ih =>
      intro u hu
      have hend : p.after (gap ++ (t.text.toList ++ cs)) =
          (p.after (gap ++ t.text.toList)).after cs := by
        rw [← List.append_assoc, Position.after_append]
      rw [hend]
      rcases List.mem_cons.mp hu with rfl | hu
      · have htext := Position.before_after (p.after gap) (Token.text_ne_nil hspelled hquoted)
        rw [hposition, Position.after_append p gap]
        exact htext.trans_upTo (Position.upTo_after _ cs)
      · exact ih u hu

/-- A row that stands at another place has its tokens moved. -/
theorem relocate (h : Reads v rest p cs ts) (hf : ∀ xs, f (p.after xs) = q.after xs) :
    Reads v rest q cs (ts.map (Token.relocate f)) := by
  induction h generalizing q with
  | layout p cs hcs => exact .layout q cs hcs
  | token p gap t cs ts hgap hposition hspelled hquoted hends hreads ih =>
      refine .token q gap (t.relocate f) cs _ hgap ?_ hspelled hquoted hends (ih fun xs => ?_)
      · rw [Token.position_relocate, hposition, hf]
      · rw [← Position.after_append, hf, Position.after_append]
        rfl

/-- Layout is inserted between two rows. The tokens behind it are moved, those in front are not. -/
theorem insert (hts : Reads v (ys ++ rest) p xs ts) (hus : Reads v rest (p.after xs) ys us)
    (hins : Layout ins) :
    Reads v rest p (xs ++ (ins ++ ys))
      ((ts ++ us).map (Token.relocate (Position.shift (p.after xs) ins))) := by
  have hstay : ts.map (Token.relocate (Position.shift (p.after xs) ins)) = ts := by
    have hfix : ∀ t ∈ ts, t.relocate (Position.shift (p.after xs) ins) = id t := by
      intro t ht
      rw [Token.relocate, Position.shift, if_pos (hts.before_after t ht)]
      rfl
    exact (List.map_congr_left hfix).trans (List.map_id ts)
  have hmoved : Reads v rest ((p.after xs).after ins) ys
      (us.map (Token.relocate (Position.shift (p.after xs) ins))) :=
    hus.relocate (Position.shift_after (p.after xs) ins)
  have hfront : Reads v (ins ++ ys ++ rest) p xs ts := by
    rw [List.append_assoc]
    exact hts.layout_behind hins
  rw [List.map_append, hstay]
  exact hfront.append (hmoved.layout_append hins)

end Reads

/-! ## Programs -/

/-- A program is the same as another one but for its layout. It is made of the same tokens, which
have been moved, and so are its positions. They are those of its tokens, and the tokens stand where
they say in the text. -/
structure Relaid (source source' : List Char) (p p' : Program) : Prop where
  same : p'.erase = p.erase
  moved : ∃ f,
    (Tokens.ofText .program source').list =
      (Tokens.ofText .program source).list.map (Token.relocate f) ∧ p' = p.relocate f
  located : ∀ q, p.HasPosition q → TokenAt (Tokens.ofText .program source).list q
  located' : ∀ q, p'.HasPosition q → TokenAt (Tokens.ofText .program source').list q
  stands : ∀ t ∈ (Tokens.ofText .program source').list, ∃ before behind,
    t.StandsIn source' before behind

namespace Program

variable {source : List Char} {p : Program}

/-- Layout may be inserted between two rows of the tokens of a program. -/
theorem parse_insert [Text.CharacterNames] (hp : Program.parse source = .ok p)
    (hsource : source = xs ++ ys ++ rest) (hts : Reads .program (ys ++ rest) .start xs ts)
    (hus : Reads .program rest (Position.start.after xs) ys us) (hrest : LastComment rest)
    (hins : Layout ins) :
    ∃ p', Program.parse (xs ++ (ins ++ ys) ++ rest) = .ok p' ∧
      Relaid source (xs ++ (ins ++ ys) ++ rest) p p' := by
  subst hsource
  have hold : Tokens.ofText .program (xs ++ ys ++ rest) = ⟨ts ++ us, none⟩ :=
    Tokens.scanFrom_of_reads (hts.append hus) hrest
  have hnew := Tokens.scanFrom_of_reads (hts.insert hus hins) hrest
  have hmoved : Tokens.ofText .program (xs ++ (ins ++ ys) ++ rest) =
      ⟨(Tokens.ofText .program (xs ++ ys ++ rest)).list.map
        (Token.relocate (Position.shift (Position.start.after xs) ins)), none⟩ := by
    rw [hold]
    exact hnew
  have hp' := parse_relocate _ hp hmoved
  refine ⟨_, hp', p.erase_relocate _, ⟨_, by rw [hmoved], rfl⟩, fun q => tokenAt hp,
    fun q => tokenAt hp', Tokens.standsIn (by rw [hmoved])⟩

/-- Blanks and comments may be inserted before and after any token of a program. The program stays
the same, and its positions move with its tokens. -/
theorem parse_layout [Text.CharacterNames] (hp : Program.parse source = .ok p)
    (ht : t ∈ (Tokens.ofText .program source).list) :
    (∃ before behind, t.StandsIn source before behind) ∧
      ∀ before behind, t.StandsIn source before behind → ∀ ins, Layout ins → ∀ source',
        source' = before ++ (ins ++ (t.text.toList ++ behind)) ∨
          source' = before ++ (t.text.toList ++ (ins ++ behind)) →
        ∃ p', Program.parse source' = .ok p' ∧ Relaid source source' p p' := by
  have hreadable := (parse_eq_ok_iff.mp hp).1.readable
  refine ⟨Tokens.standsIn hreadable t ht, fun before behind hstands ins hins source' hsource' => ?_⟩
  obtain ⟨cs, rest, tokens, hsource, hrest, hreads⟩ :=
    Tokens.exists_reads .program .start source hreadable
  have htokens : (Tokens.ofText .program source).list = tokens := by
    rw [hsource, Tokens.ofText, Tokens.scanFrom_of_reads hreads hrest]
  obtain ⟨ts, us, rfl⟩ := List.append_of_mem (htokens ▸ ht)
  obtain ⟨xs, ys, rfl, hplace, hts, hself, hus⟩ := hreads.exists_split
  -- The row is split where the token stands.
  obtain ⟨htext, hposition⟩ := Token.standsIn_iff.mp hstands
  have hsame : xs ++ (t.text.toList ++ (ys ++ rest)) = before ++ (t.text.toList ++ behind) := by
    rw [← htext, hsource]
    simp only [List.append_assoc]
  obtain rfl : xs = before := Position.eq_of_after_eq hsame (hplace.symm.trans hposition)
  obtain rfl : ys ++ rest = behind :=
    List.append_cancel_left (List.append_cancel_left hsame)
  rcases hsource' with rfl | rfl
  · have hts' : Reads .program (t.text.toList ++ ys ++ rest) .start xs ts := by
      rwa [List.append_assoc]
    have h := parse_insert hp hsource hts' (hself.append hus) hrest hins
    simpa only [List.append_assoc] using h
  · rw [← Position.after_append] at hus
    have hbehind : source = xs ++ t.text.toList ++ ys ++ rest := by
      simp only [hsource, List.append_assoc]
    have h := parse_insert hp hbehind (hts.append hself) hus hrest hins
    simpa only [List.append_assoc] using h

/-- A comment may stand inside a path. What follows it stands on the next line then. -/
theorem parse_layout_of_comment :
    let source := "const x = a::b;".toList
    let source' := "const x = a// path\n::b;".toList
    ∃ p p', Program.parse source = .ok p ∧ Program.parse source' = .ok p' ∧
      Relaid source source' p p' ∧
      (Tokens.ofText .program source').list.map (·.position) =
        [⟨1, 1⟩, ⟨1, 7⟩, ⟨1, 9⟩, ⟨1, 11⟩, ⟨2, 1⟩, ⟨2, 3⟩, ⟨2, 4⟩] := by
  intro source source'
  obtain ⟨p, hp⟩ : ∃ p, Program.parse source = .ok p := ⟨_, rfl⟩
  have ht : Token.ofMark .colons ⟨1, 12⟩ ∈ (Tokens.ofText .program source).list := by decide
  have hstands : (Token.ofMark .colons ⟨1, 12⟩).StandsIn source "const x = a".toList "b;".toList :=
    ⟨rfl, rfl, rfl⟩
  have hcomment : Layout "// path\n".toList :=
    .comment " path".toList [] (by simp) .nil
  obtain ⟨p', hp', hrelaid⟩ :=
    (parse_layout hp ht).2 _ _ hstands _ hcomment source' (.inl rfl)
  exact ⟨p, p', hp, hp', hrelaid, by decide⟩

end Program

end Syntax

end AnonymousObjects
