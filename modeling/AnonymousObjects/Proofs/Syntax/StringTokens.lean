import AnonymousObjects.Proofs.Syntax.Printing.Rows
import AnonymousObjects.Proofs.Text.Escapes
import AnonymousObjects.Text.NameTable

/-!
# The values of string tokens

A string among the tokens of a text ends with the first quotation mark that stands behind no
backslash (`Tokens.ofText_quoted`), so what is between the marks is a row of whole elements, and
`Token.decode_content` says what it is decoded to.
-/

namespace AnonymousObjects

namespace Syntax

variable {v : Vocabulary} {p : Position} {c : Char} {scan : Scan} {t : Token}

/-- Only strings need to be quoted. -/
theorem Token.quoted_of_kind (h : t.kind ≠ .string) : t.Quoted :=
  fun hstring => absurd hstring h

namespace Scan

/-- What has been read of a string does not end it. -/
def Quoting : Scan → Prop
  | .string _ reversed afterBackslash =>
    ∃ body, reversed.reverse = '"' :: body ∧
      ∀ more, staysQuoted false (body ++ more) = staysQuoted afterBackslash more
  | _ => True

/-- A move completes tokens that are quoted if they are strings, and begins strings with a mark. -/
def Move.Quotes : Move → Prop
  | .on completed scan => (∀ t ∈ completed, t.Quoted) ∧ scan.Quoting
  | .stop completed _ _ => ∀ t ∈ completed, t.Quoted

/-- A token that is quoted may be completed. -/
theorem Move.Quotes.completing {move : Move} (h : move.Quotes) (ht : t.Quoted) :
    (move.completing t).Quotes := by
  cases move with
  | on completed scan => exact ⟨List.forall_mem_cons.mpr ⟨ht, h.1⟩, h.2⟩
  | stop completed c position => exact List.forall_mem_cons.mpr ⟨ht, h⟩

/-- A mark is no string. -/
theorem quoted_ofMark (m : Mark) (p : Position) : (Token.ofMark m p).Quoted :=
  Token.quoted_of_kind (by simp [Token.ofMark])

/-- A word is no string. -/
theorem quoted_wordToken (start : Position) (reversed : List Char) :
    (wordToken v start reversed).Quoted := by
  refine Token.quoted_of_kind ?_
  unfold wordToken Token.ofWord
  split <;> simp

/-- What a character begins quotes nothing wrongly. -/
theorem begin_quotes (v : Vocabulary) (p : Position) (c : Char) : (begin v p c).Quotes := by
  unfold begin
  split_ifs
  · exact ⟨by simp, trivial⟩
  · exact ⟨by simp, trivial⟩
  · exact ⟨by simp, trivial⟩
  · next hquote =>
    subst hquote
    exact ⟨by simp, [], rfl, fun _ => rfl⟩
  · exact ⟨by simp, trivial⟩
  · exact ⟨by simp, trivial⟩
  · exact ⟨by simp, trivial⟩
  · split
    · next m _ =>
      split
      · exact ⟨List.forall_mem_singleton.mpr (quoted_ofMark m p), trivial⟩
      · simp [Move.Quotes]
    · simp [Move.Quotes]

/-- One more character of a string. -/
theorem Quoting.string {start : Position} {reversed : List Char} {afterBackslash next : Bool}
    (h : (Scan.string start reversed afterBackslash).Quoting)
    (hc : ∀ more, staysQuoted afterBackslash (c :: more) = staysQuoted next more) :
    (Scan.string start (c :: reversed) next).Quoting := by
  obtain ⟨body, hbody, hmore⟩ := h
  refine ⟨body ++ [c], by simp [hbody], fun more => ?_⟩
  rw [List.append_assoc, hmore, List.singleton_append, hc]

/-- Each step of the scan keeps strings closed by their own quotation marks. -/
theorem step_quotes (v : Vocabulary) (p : Position) (c : Char) (h : scan.Quoting) :
    (scan.step v p c).Quotes := by
  cases scan with
  | between => exact begin_quotes v p c
  | word start reversed =>
      simp only [step]
      split
      · exact ⟨by simp, trivial⟩
      · exact (begin_quotes v p c).completing (quoted_wordToken start reversed)
  | number start reversed =>
      simp only [step]
      split
      · exact ⟨by simp, trivial⟩
      · exact (begin_quotes v p c).completing (Token.quoted_of_kind (by simp [token]))
  | string start reversed afterBackslash =>
      cases afterBackslash with
      | false =>
          simp only [step]
          split
          · next hquote =>
            subst hquote
            -- What stands between the two marks stays open in front of anything, so also in front
            -- of the end.
            obtain ⟨body, hbody, hmore⟩ := h
            refine ⟨List.forall_mem_singleton.mpr fun _ => ⟨body, ?_, ?_⟩, trivial⟩
            · simp [token, hbody]
            · simpa [staysQuoted] using hmore []
          · next hquote =>
            exact ⟨by simp, h.string fun more => by simp [staysQuoted, hquote]⟩
      | true =>
          simp only [step]
          split
          · simp [Move.Quotes]
          · next hline => exact ⟨by simp, h.string fun more => by simp [staysQuoted, hline]⟩
  | comment =>
      simp only [step]
      split <;> exact ⟨by simp, trivial⟩
  | slash start =>
      simp only [step]
      split
      · exact ⟨by simp, trivial⟩
      · simp [Move.Quotes]
  | colon start =>
      simp only [step]
      split
      · exact ⟨List.forall_mem_singleton.mpr (quoted_ofMark .colons start), trivial⟩
      · split
        · exact (begin_quotes v p c).completing (quoted_ofMark .colon start)
        · simp [Move.Quotes]
  | question start =>
      simp only [step]
      split
      · exact ⟨List.forall_mem_singleton.mpr (quoted_ofMark .questionDot start), trivial⟩
      · simp [Move.Quotes]

end Scan

namespace Tokens

/-- No string is left open among the tokens at the end. -/
theorem atEnd_quoted (v : Vocabulary) (scan : Scan) : ∀ t ∈ (atEnd v scan).list, t.Quoted := by
  cases scan with
  | word start reversed =>
      exact List.forall_mem_singleton.mpr (Scan.quoted_wordToken start reversed)
  | number start reversed =>
      exact List.forall_mem_singleton.mpr (Token.quoted_of_kind (by simp [Scan.token]))
  | colon start =>
      simp only [atEnd]
      split
      · exact List.forall_mem_singleton.mpr (Scan.quoted_ofMark .colon start)
      · simp
  | between | comment | string | slash | question => simp [atEnd]

/-- The strings of a scan are closed by their own quotation marks. -/
theorem scanFrom_quoted_of_quoting (v : Vocabulary) (h : scan.Quoting) (p : Position)
    (cs : List Char) : ∀ t ∈ (scanFrom v scan p cs).list, t.Quoted := by
  induction cs generalizing scan p with
  | nil => exact atEnd_quoted v scan
  | cons c cs ih =>
      have hmove := Scan.step_quotes v p c h
      rw [scanFrom]
      split
      · next completed next hstep =>
        rw [hstep] at hmove
        exact List.forall_mem_append.mpr ⟨hmove.1, ih hmove.2 (p.next c)⟩
      · next completed bad place hstep =>
        rw [hstep] at hmove
        exact hmove

/-- The strings among the tokens of a source text end with the first quotation mark that stands
behind no backslash. -/
theorem ofText_quoted (v : Vocabulary) (cs : List Char) : ∀ t ∈ (ofText v cs).list, t.Quoted :=
  scanFrom_quoted_of_quoting v (show Scan.Quoting .between from trivial) .start cs

end Tokens

end Syntax

namespace Text.Escape

open Syntax (staysQuoted)

variable {c : Char} {cs : List Char}

/-! ## Elements of string tokens -/

/-- A text stays quoted behind a character that is no backslash. -/
theorem staysQuoted_tail (h : staysQuoted false (c :: cs) = true) (hc : c ≠ '\\') :
    staysQuoted false cs = true := by
  simpa [staysQuoted, hc] using (Bool.and_eq_true_iff.mp h).2

/-- A text stays quoted behind octal digits. -/
theorem staysQuoted_drop_octalRow (n : Nat) (h : staysQuoted false cs = true) :
    staysQuoted false (cs.drop (octalRow n cs).length) = true := by
  induction n generalizing cs with
  | zero => exact h
  | succ n ih =>
      cases cs with
      | nil => exact h
      | cons c cs =>
          cases hc : octal? c with
          | none => simpa [octalRow, hc] using h
          | some d =>
              have hslash : c ≠ '\\' := by
                rintro rfl
                cases hc
              simpa [octalRow, hc] using ih (staysQuoted_tail h hslash)

/-- A text stays quoted behind hexadecimal digits. -/
theorem staysQuoted_drop_hexRow {n : Nat} {digits : List Nat} (hrow : hexRow n cs = some digits)
    (h : staysQuoted false cs = true) : staysQuoted false (cs.drop n) = true := by
  induction n generalizing cs digits with
  | zero => exact h
  | succ n ih =>
      cases cs with
      | nil => cases hrow
      | cons c cs =>
          cases hc : Hex.value? c with
          | none => simp [hexRow, hc] at hrow
          | some d =>
              cases hrest : hexRow n cs with
              | none => simp [hexRow, hc, hrest] at hrow
              | some digits =>
                  have hslash : c ≠ '\\' := by
                    rintro rfl
                    cases hc
                  exact ih hrest (staysQuoted_tail h hslash)

/-- A string goes on behind characters that are no backslashes. -/
theorem staysQuoted_of_append {letters rest : List Char}
    (hletters : ∀ d ∈ letters, d ≠ '\\')
    (h : staysQuoted false (letters ++ rest) = true) : staysQuoted false rest = true := by
  induction letters with
  | nil => exact h
  | cons d letters ih =>
      obtain ⟨hd, hletters⟩ := List.forall_mem_cons.mp hletters
      exact ih hletters (staysQuoted_tail h hd)

/-- An element that is read behind a backslash in a string: it is not missing, it keeps no line
feed, and the string does not end before what follows it in `cs`. -/
structure GoesOn (cs : List Char) (x : Except Fault (Element × Nat)) : Prop where
  /-- There is something behind the backslash. -/
  not_lone : x ≠ .error .loneBackslash
  /-- The backslash is not kept before a line feed, and the string goes on. -/
  behind : ∀ e n, x = .ok (e, n) → e ≠ .kept '\n' ∧ staysQuoted false (cs.drop n) = true

namespace GoesOn

/-- An element in a string that goes on behind it. -/
theorem ok {e : Element} {n : Nat} (he : e ≠ .kept '\n')
    (hrest : staysQuoted false (cs.drop n) = true) : GoesOn cs (.ok (e, n)) where
  not_lone := by simp
  behind := by
    rintro _ _ ⟨⟩
    exact ⟨he, hrest⟩

/-- An escape at fault. -/
theorem error {fault : Fault} (h : fault ≠ .loneBackslash) : GoesOn cs (.error fault) where
  not_lone := by simpa using h
  behind := by simp

/-- An escape by a number, in a string that goes on behind its digits. -/
theorem escapeOf (value : Nat) {n : Nat} (hrest : staysQuoted false (cs.drop n) = true) :
    GoesOn cs ((·, n) <$> Escape.escapeOf value) := by
  unfold Escape.escapeOf
  cases codePoint? value with
  | none => exact error (by simp)
  | some p => exact ok (by simp) hrest

end GoesOn

/-- Behind a name that is known the string goes on as before. -/
theorem nameAt_of_staysQuoted [CharacterNames] (h : staysQuoted false cs = true) :
    GoesOn ('N' :: cs) (nameAt cs) := by
  cases cs with
  | nil => exact .error (by simp)
  | cons c cs =>
      by_cases hclosed : c = '\x7b' ∧ '\x7d' ∈ cs
      · obtain ⟨rfl, hmem⟩ := hclosed
        obtain ⟨name, rest, rfl, hname⟩ := List.eq_append_cons_of_mem hmem
        rw [nameAt_of_closed hname]
        unfold named
        by_cases hempty : name.isEmpty = true
        · rw [if_pos hempty]
          exact .error (by simp)
        · rw [if_neg hempty]
          cases hfound : CharacterNames.find? name with
          | none => exact .error (by simp)
          | some d =>
              -- A name that is found is spelled with letters, digits, spaces and hyphens; it has no
              -- backslash that could hide a quotation mark behind it.
              have hletters := List.all_eq_true.mp (CharacterNames.all_inCharacterName hfound)
              have hplain : ∀ d ∈ '\x7b' :: (name ++ ['\x7d']), d ≠ '\\' := by
                refine List.forall_mem_cons.mpr
                  ⟨by decide, List.forall_mem_append.mpr ⟨?_, by simp⟩⟩
                rintro d hd rfl
                exact absurd (hletters _ hd) (by decide)
              have hrest : staysQuoted false rest = true :=
                staysQuoted_of_append hplain (by simpa using h)
              exact .ok (by simp) (by simpa using hrest)
      · rw [nameAt, if_neg hclosed]
        exact .error (by simp)

/-- Behind a backslash that ends no string there is a character, which is no line feed, and the
string does not end before what follows the element either. -/
theorem escapeAt_of_staysQuoted [Text.CharacterNames] (h : staysQuoted true cs = true) :
    GoesOn cs (escapeAt cs) := by
  cases cs with
  | nil => cases h
  | cons c cs =>
      -- The character after the backslash is in the string. The cases are those of `escapeAt`, in
      -- order.
      obtain ⟨hline, hrest⟩ : c ≠ '\n' ∧ staysQuoted false cs = true := by
        simpa [staysQuoted] using h
      cases hsingle : single? c with
      | some d =>
          simp only [escapeAt, hsingle]
          exact .ok (by simp) hrest
      | none =>
          cases hoctal : octal? c with
          | some d =>
              have hrow : octalRow 3 (c :: cs) = d :: octalRow 2 cs := by simp [octalRow, hoctal]
              simp only [escapeAt, hsingle, hoctal]
              refine .escapeOf _ ?_
              rw [hrow]
              exact staysQuoted_drop_octalRow 2 hrest
          | none =>
              cases hform : HexForm.ofLetter? c with
              | some form =>
                  simp only [escapeAt, hsingle, hoctal, hform]
                  cases hdigits : hexRow form.width cs with
                  | none => exact .error (by simp)
                  | some digits =>
                      have hdrop := staysQuoted_drop_hexRow hdigits hrest
                      exact .escapeOf _ hdrop
              | none =>
                  simp only [escapeAt, hsingle, hoctal, hform]
                  split
                  · next hname =>
                    subst hname
                    exact nameAt_of_staysQuoted hrest
                  · exact .ok (by simpa using hline) hrest

/-- A text that ends no string does not end in a backslash by itself, and keeps no backslash before
a line feed. -/
theorem elements_of_staysQuoted [Text.CharacterNames] (h : staysQuoted false cs = true) :
    elements cs ≠ .error .loneBackslash ∧ ∀ es, elements cs = .ok es → .kept '\n' ∉ es := by
  fun_induction elements cs with
  | case1 => exact ⟨by simp, by rintro es ⟨⟩; simp⟩
  | case2 cs e n hescape ih =>
      have hbehind : staysQuoted true cs = true := by simpa [staysQuoted] using h
      obtain ⟨hkept, hrest⟩ := (escapeAt_of_staysQuoted hbehind).behind e n hescape
      obtain ⟨hlone, hline⟩ := ih hrest
      cases hes : elements (cs.drop n) with
      | error fault => simpa [Functor.map, Except.map, hes] using hlone
      | ok es => simpa [Functor.map, Except.map, hkept.symm] using hline es hes
  | case3 cs fault hescape =>
      have hbehind : staysQuoted true cs = true := by simpa [staysQuoted] using h
      have hlone := (escapeAt_of_staysQuoted hbehind).not_lone
      rw [hescape] at hlone
      exact ⟨by simpa using hlone, by simp⟩
  | case4 c cs hslash ih =>
      obtain ⟨hlone, hline⟩ := ih (staysQuoted_tail h hslash)
      cases hes : elements cs with
      | error fault => simpa [Functor.map, Except.map, hes] using hlone
      | ok es => simpa [Functor.map, Except.map] using hline es hes

end Text.Escape

namespace Syntax

open Text.Escape (decode elements reference)

/-- A string token is a text between quotation marks, in which no backslash stands by itself at the
end or in front of a line feed. It is decoded to what its elements stand for, or is as faulty as
they are, exactly unless a backslash that escapes nothing stands in front of a wide character; the
backslash and the spelling of the character as an escape come out instead. -/
theorem Token.decode_content [Text.CharacterNames] (v : Vocabulary) (source : List Char) {t : Token}
    (ht : t ∈ (Tokens.ofText v source).list) (hkind : t.kind = .string) :
    t.text.toList = '"' :: (t.content ++ ['"']) ∧
      elements t.content ≠ .error .loneBackslash ∧
      (∀ es, elements t.content = .ok es → .kept '\n' ∉ es) ∧
      decode t.content = (·.flatMap Text.Escape.Element.decoded) <$> elements t.content ∧
      (decode t.content = reference t.content ↔
        ∀ es, elements t.content = .ok es → ∀ c, .kept c ∈ es → c.toNat ≤ 0xFF) := by
  obtain ⟨body, htext, hbody⟩ := Tokens.ofText_quoted v source t ht hkind
  have hcontent : t.content = body := by simp [Token.content, htext]
  rw [hcontent]
  obtain ⟨hlone, hline⟩ := Text.Escape.elements_of_staysQuoted hbody
  exact ⟨htext, hlone, hline, Text.Escape.decode_eq body, Text.Escape.decode_eq_reference_iff body⟩

/-- The token of a string with a backslash in front of a wide character. -/
def garbledToken : Token :=
  ⟨.string, "\"\\\u65e5\"", ⟨1, 1⟩⟩

/-- The garbled literal is a token of its text. -/
theorem garbledToken_mem :
    garbledToken ∈ (Tokens.ofText .expression garbledToken.text.toList).list := by
  decide

/-- The garbled literal is one backslash that escapes nothing. -/
theorem elements_garbledToken [Text.CharacterNames] : elements garbledToken.content = .ok
    [.kept '\u65e5'] := by
  have hcontent : garbledToken.content = ['\\', '\u65e5'] := rfl
  have hescape : Text.Escape.escapeAt ['\u65e5'] = .ok (.kept '\u65e5', 1) :=
    Text.Escape.escapeAt_of_wide (by decide) []
  rw [hcontent, elements, if_pos rfl, hescape]
  simp [elements, Functor.map, Except.map]

/-- In the token the backslash and the spelling of the character come out. -/
theorem decode_content_of_garbledToken :
    garbledToken ∈ (Tokens.ofText .expression garbledToken.text.toList).list ∧
      garbledToken.kind = .string ∧
      decode garbledToken.content = .ok (Text.ofString "\\u65e5") := by
  obtain ⟨-, -, -, hdecode, -⟩ := Token.decode_content .expression _ garbledToken_mem rfl
  refine ⟨garbledToken_mem, rfl, hdecode.trans ?_⟩
  rw [elements_garbledToken]
  decide

/-- So not every string token is decoded to what its elements stand for. -/
theorem decode_content_ne_reference :
    ¬ ∀ (v : Vocabulary) (source : List Char), ∀ t ∈ (Tokens.ofText v source).list,
      t.kind = .string → decode t.content = reference t.content := by
  intro h
  have hsame := h .expression _ garbledToken garbledToken_mem rfl
  have hnarrow := (Text.Escape.decode_eq_reference_iff _).mp hsame _ elements_garbledToken
    '\u65e5' (by simp)
  exact absurd hnarrow (by decide)

end Syntax

end AnonymousObjects
