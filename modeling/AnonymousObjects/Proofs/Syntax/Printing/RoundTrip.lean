import AnonymousObjects.Proofs.Syntax.Grammar.Sums
import AnonymousObjects.Proofs.Syntax.Printing.Derivations
import AnonymousObjects.Proofs.Syntax.Printing.Positions
import AnonymousObjects.Text.NameTable

/-!
# Printed expressions are read back

The printed tokens of a derivation are read alike to the tokens themselves, and what is read never
has two words or numbers side by side, so the printed text has just the printed tokens. Reading it
gives the expression of the derivation again, at other positions: `Expr.parse_toText`.
-/

namespace AnonymousObjects.Syntax

namespace Grammar

/-! ## Words and numbers stand apart -/

/-- A mark must come next. -/
def Place.NeedsMark : Place → Prop
  | .new _ | .complete _ => True
  | _ => False

namespace OpenSum

variable {q q' : OpenSum} {t : Token}

/-- A word or a number that opens an operand must be followed by a mark. -/
theorem needsMark_of_open (h : q.openOperand t = some q') (ht : t.kind.isSolid = true) :
    q'.place.NeedsMark := by
  unfold openOperand at h
  split at h
  case h_8 hkind =>
    rw [hkind] at ht
    cases ht
  case h_9 => cases h
  all_goals
    cases h
    trivial

/-- After a word or a number comes a mark. -/
theorem needsMark_of_shift (h : q.shift t = some q') (ht : t.kind.isSolid = true) :
    q'.place.NeedsMark := by
  unfold shift at h
  split at h
  case h_1 => exact needsMark_of_open h ht
  case h_2 | h_3 =>
    split at h
    · next hkind =>
      rw [hkind] at ht
      cases ht
    · exact needsMark_of_open h ht
  case h_4 | h_8 =>
    split at h
    · next hkind =>
      rw [hkind] at ht
      cases ht
    · cases h
  all_goals
    split at h
    · cases h
      trivial
    · cases h

/-- Where a mark must come, no word or number is read. -/
theorem not_solid_of_needsMark (hq : q.place.NeedsMark) (h : q.shift t = some q') :
    t.kind.isSolid = false := by
  obtain ⟨brackets, left, place⟩ := q
  cases place with
  | new | complete =>
      simp only [shift] at h
      split at h
      · next hkind => rw [hkind]; rfl
      · cases h
  | _ => cases hq

/-- Two words or numbers never stand side by side in what is read. -/
theorem isChain_of_feed {ts : List Token} (h : feed shift q ts = .ok q') :
    ts.IsChain Token.Apart := by
  induction ts generalizing q with
  | nil => exact .nil
  | cons t ts ih =>
    rw [feed] at h
    split at h
    · cases h
    · next next hnext =>
      cases ts with
      | nil => exact .singleton _
      | cons u ts =>
        refine .cons_cons (fun hsolid => ?_) (ih h)
        rw [feed] at h
        split at h
        · cases h
        · next hu => exact not_solid_of_needsMark (needsMark_of_shift hnext hsolid) hu

end OpenSum

end Grammar

/-! ## Printing and reading back -/

section

variable [Text.CharacterNames]

namespace Token

variable {t : Token}

/-- A token is printed as its class says. -/
theorem printed_spelled {v : Vocabulary} (h : t.Spelled v) : t.printed.Spelled v := by
  obtain ⟨kind, text, position⟩ := t
  cases kind with
  | name => exact h
  | integer =>
      refine ⟨?_, fun c hc => Text.Decimal.isDigit_of_mem_toString hc⟩
      simp [printed, spelling]
  | string => trivial
  | keyword k =>
      have htext : k.text = text := by simpa using List.find?_some h
      show v.keyword? k.text = some k
      rw [htext]
      exact h
  | mark m => exact ⟨rfl, h.2⟩

/-- A string is printed in quotation marks. -/
theorem printed_quoted (t : Token) : t.printed.Quoted := by
  intro hkind
  have hstring : t.kind = .string := hkind
  refine ⟨_, ?_, staysQuoted_guardedChars (charsOf (Grammar.stringValue t))⟩
  simp [printed, spelling, hstring]

/-- The content of a printed string is decoded to the string. -/
theorem decode_printed (hkind : t.kind = .string) (hplain : t.Plain) (p : Position) :
    Text.Escape.decode (t.printed.at p).content = .ok (Grammar.stringValue t) := by
  have hcontent : (t.printed.at p).content =
      Text.Escape.guardedChars (charsOf (Grammar.stringValue t)) := by
    simp [content, Token.at, printed, spelling, hkind]
  rw [hcontent, Text.Escape.decode_guardedChars, charsOf_map (hplain hkind)]

/-- A printed token is read as the token is. -/
theorem alike_printed (hplain : t.Plain) (p : Position) : t.Alike (t.printed.at p) where
  kind := rfl
  name := by
    intro hname
    simp [Token.at, printed, spelling, hname]
  literal := by
    obtain ⟨kind, text, position⟩ := t
    cases kind with
    | integer =>
        show some (Literal.mk _ (.int (Text.Decimal.ofText text))) =
          some ⟨.int, .int (Text.Decimal.ofText (toString (Text.Decimal.ofText text)))⟩
        rw [Text.Decimal.ofText_toString]
    | string =>
        have hdecode := decode_printed rfl hplain p
        show some (Literal.mk _ (.text (Grammar.stringValue _))) = some ⟨.string, .text _⟩
        rw [hdecode]
    | keyword k => cases k <;> rfl
    | name | mark => rfl

/-- The number of an integer token that stands for a value is written within the limit. -/
theorem length_number {v : Vocabulary} (hspelled : t.Spelled v) (hfault : t.fault? = none)
    (hkind : t.kind = .integer) :
    (toString (Text.Decimal.ofText t.text)).length ≤ Text.Decimal.digitLimit := by
  obtain ⟨kind, text, position⟩ := t
  obtain rfl : kind = .integer := hkind
  have hlength : text.length ≤ Text.Decimal.digitLimit := by
    by_contra h
    simp [fault?, h] at hfault
  exact (Text.Decimal.length_toString_le (List.length_pos_iff.mpr hspelled.1)
    (Text.Decimal.ofText_lt hspelled.2)).trans hlength

/-- A printed token stands for a value if the token does. -/
theorem fault?_printed {v : Vocabulary} (hspelled : t.Spelled v) (hfault : t.fault? = none)
    (hplain : t.Plain) (p : Position) : (t.printed.at p).fault? = none := by
  obtain ⟨kind, text, position⟩ := t
  cases kind with
  | integer =>
      simp only [fault?, Token.at, printed, spelling]
      exact if_pos (length_number hspelled hfault rfl)
  | string =>
      have hdecode := decode_printed rfl hplain p
      simp only [fault?, Token.at, printed] at hdecode ⊢
      rw [hdecode]
  | _ => rfl

end Token

/-- Tokens with the classes and texts of printed tokens are printed tokens at other places. -/
theorem forall₂_of_map_eq (good : Token → Token → Prop) {ts us : List Token}
    (hgood : ∀ t ∈ ts, ∀ p, good t (t.printed.at p))
    (h : us.map (·.at .start) = (ts.map Token.printed).map (·.at .start)) :
    List.Forall₂ good ts us := by
  induction ts generalizing us with
  | nil =>
    obtain rfl : us = [] := by simpa using h
    exact .nil
  | cons t ts ih =>
    cases us with
    | nil => simp at h
    | cons u us =>
      obtain ⟨hu, hus⟩ := List.cons.inj h
      refine .cons ?_ (ih (fun t ht => hgood t (by simp [ht])) hus)
      obtain ⟨kind, text, position⟩ := u
      injection hu with hkind htext
      simp only at hkind htext
      subst hkind htext
      exact hgood t (by simp) position

/-- Rows of tokens that are read alike, without faults, are read into expressions that differ in
positions only. -/
theorem Expr.parse_of_forall₂ {ts us : List Token} {text : List Char} {r : Reading} {e : Expr}
    (htext : Tokens.ofText .expression text = ⟨us, none⟩)
    (h : List.Forall₂ (fun t u => t.Alike u ∧ u.fault? = none) ts us)
    (hfeed : feed Reading.shift .start ts = .ok r) (hvalue : r.value? = some e) :
    ∃ e', Expr.parse text = .ok e' ∧ e'.erase = e.erase := by
  have hfaults : ∀ u ∈ us, u.fault? = none := by
    clear htext hfeed
    induction h with
    | nil => simp
    | cons hfirst _ ih => simpa [hfirst.2] using ih
  obtain ⟨r', hfeed', hsame⟩ := Reading.feed_alike (h.imp fun _ _ h => h.1) rfl hfeed
  have herased : r'.value?.map Expr.erase = some e.erase := by
    rw [← r'.value?_erase, ← hsame, r.value?_erase, hvalue]
    rfl
  obtain ⟨e', he', herase⟩ := Option.map_eq_some_iff.mp herased
  refine ⟨e', readText_of_feed ?_ ?_ ?_ he', herase⟩
  · rw [htext]
  · rw [htext]
    exact faultIn_eq_none_iff.mpr hfaults
  · rw [htext]
    exact hfeed'

/-- An expression that has been read from a text, if its strings hold no surrogates, is printed as a
text that is read into the same expression but for positions. -/
theorem Expr.parse_toText {source : List Char} {e : Expr} (h : Expr.parse source = .ok e)
    (hsurrogates : ∀ l ∈ e.literals, l.kind = .string → ∀ p ∈ l.value.toText, ¬ p.IsSurrogate) :
    ∃ (text : List Char) (e' : Expr), e.toText = text.map CodePoint.ofChar ∧
      Expr.parse text = .ok e' ∧ e'.erase = e.erase ∧ e'.toText = e.toText := by
  obtain ⟨r, hfeed, hvalue⟩ := readText_eq_ok h
  have hfaults := faultIn_eq_none_iff.mp (faultIn_of_readText h)
  have hspelled := Tokens.ofText_spelled .expression source
  obtain ⟨s, hs, rfl⟩ := Grammar.Sum.exists_of_feed hfeed hvalue
  rw [← hs] at hfaults hspelled
  have hplain : ∀ t ∈ s.tokens, t.Plain := by
    intro t ht hkind p hp
    have hliteral : t.literal? = some ⟨.string, .text (Grammar.stringValue t)⟩ := by
      simp only [Token.literal?, hkind]
      rfl
    have hmem : ⟨.string, .text (Grammar.stringValue t)⟩ ∈ s.build.literals := by
      rw [s.literals_build]
      exact List.mem_filterMap.mpr ⟨t, ht, hliteral⟩
    exact hsurrogates _ hmem rfl p hp
  have hsub := s.tokens_trim.subset
  -- The derivation without trailing commas has the tokens that are printed.
  obtain ⟨r', hfeed', hvalue'⟩ := s.trim.feed_built
  rw [s.build_trim] at hvalue'
  obtain ⟨q, hq⟩ : ∃ q, feed Grammar.OpenSum.shift .start s.trim.tokens = .ok q :=
    ⟨_, s.trim.feed_tokens []⟩
  have hapart : (s.trim.tokens.map Token.printed).IsChain Token.Apart :=
    (List.isChain_map _).mpr (Grammar.OpenSum.isChain_of_feed hq)
  have hprinted : Spelled .expression (s.trim.tokens.map Token.printed) := by
    intro u hu
    obtain ⟨t, ht, rfl⟩ := List.mem_map.mp hu
    exact Token.printed_spelled (hspelled t (hsub ht))
  have hquoted : ∀ u ∈ s.trim.tokens.map Token.printed, u.Quoted := by
    intro u hu
    obtain ⟨t, -, rfl⟩ := List.mem_map.mp hu
    exact t.printed_quoted
  obtain ⟨us, hscan, hus⟩ := Tokens.scanFrom_row .start hprinted hquoted hapart
  have halike := forall₂_of_map_eq (fun t u => t.Alike u ∧ u.fault? = none)
    (fun t ht p => ⟨Token.alike_printed (hplain t (hsub ht)) p,
      Token.fault?_printed (hspelled t (hsub ht)) (hfaults t (hsub ht)) (hplain t (hsub ht)) p⟩) hus
  obtain ⟨e', hparse, herase⟩ := Expr.parse_of_forall₂ hscan halike hfeed' hvalue'
  refine ⟨_, e', ?_, hparse, herase, ?_⟩
  · rw [s.toText_build hplain, rowText, List.flatMap_map]
  · rw [← e'.toText_erase, herase, Expr.toText_erase]

end

/-- The comma after the last initializer is not printed, and the quotation mark that is given by its
name is printed with a backslash before it. -/
theorem parse_toText_of_creation :
    let source := "new \x7b a = \"\\N\x7bQUOTATION MARK\x7d\", \x7d".toList
    ∃ e, Expr.parse source = .ok e ∧
      ∃ (text : List Char) (e' : Expr), e.toText = text.map CodePoint.ofChar ∧
        Expr.parse text = .ok e' ∧ e'.erase = e.erase ∧ e'.toText = e.toText := by
  intro source
  let value : Expr := .literal (some ⟨1, 11⟩) ⟨.string, .text (Text.ofString "\"")⟩
  have hparse : Expr.parse source = .ok (.creation (some ⟨1, 1⟩) (some ⟨1, 1⟩)
      [⟨some ⟨1, 7⟩, some ⟨"a", some ⟨1, 7⟩⟩, value⟩]) := rfl
  refine ⟨_, hparse, Expr.parse_toText hparse ?_⟩
  intro l hl _ p hp
  obtain rfl : l = ⟨.string, .text (Text.ofString "\"")⟩ := by
    simpa [Expr.literals, Expr.literalsOfInitializers, value] using hl
  obtain rfl : p = CodePoint.ofChar '"' := by simpa [LiteralValue.toText, Text.ofString] using hp
  intro hsurrogate
  exact absurd hsurrogate.1 (by decide)

end AnonymousObjects.Syntax
