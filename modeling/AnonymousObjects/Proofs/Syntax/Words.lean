import AnonymousObjects.Syntax.Tokens
import Mathlib.Tactic.SplitIfs

/-!
# How tokens are spelled

The text of a token is one of its class: a name is a word that is no keyword, a number is a row of
digits, a mark is written as it is. `ofText_spelled` says so of every token that a source text has,
whatever else stands in the text, and `ofText_wellNamed` of names by themselves.
-/

namespace AnonymousObjects.Syntax

/-- The text of a token is one of its class. The texts of strings are left open. -/
def Token.Spelled (v : Vocabulary) (t : Token) : Prop :=
  match t.kind with
  | .name => isWord t.text.toList = true ∧ v.keyword? t.text = none
  | .integer => t.text.toList ≠ [] ∧ ∀ c ∈ t.text.toList, c.isDigit = true
  | .string => True
  | .keyword k => v.keyword? t.text = some k
  | .mark m => t.text = m.text ∧ v.hasMark m = true

/-- A token for a name has a word as its text. -/
def Token.WellNamed (t : Token) : Prop :=
  t.kind = .name → isWord t.text.toList = true

/-- The texts of tokens are those of their classes. -/
def Spelled (v : Vocabulary) (ts : List Token) : Prop :=
  ∀ t ∈ ts, t.Spelled v

/-- Tokens for names have words as their texts. -/
def WellNamed (ts : List Token) : Prop :=
  ∀ t ∈ ts, t.WellNamed

variable {v : Vocabulary} {p : Position} {c : Char} {scan : Scan} {move : Scan.Move} {t : Token}

/-- A token with a text of its class is well named. -/
theorem Token.Spelled.wellNamed (h : t.Spelled v) : t.WellNamed := by
  intro hname
  simp only [Spelled, hname] at h
  exact h.1

/-- No tokens, no texts. -/
theorem Spelled.nil : Spelled v [] := by
  simp [Spelled]

/-- A token with a text of its class may come first. -/
theorem Spelled.cons {ts : List Token} (ht : t.Spelled v) (hts : Spelled v ts) :
    Spelled v (t :: ts) := by
  intro u hu
  rcases List.mem_cons.mp hu with rfl | hu
  · exact ht
  · exact hts u hu

/-- Rows of tokens with texts of their classes may follow one another. -/
theorem Spelled.append {ts us : List Token} (hts : Spelled v ts) (hus : Spelled v us) :
    Spelled v (ts ++ us) := by
  intro t ht
  rcases List.mem_append.mp ht with ht | ht
  · exact hts t ht
  · exact hus t ht

/-- A word goes on as long as there are characters of words. -/
theorem isWord_append {cs : List Char} (h : isWord cs = true) (hc : inWord c = true) :
    isWord (cs ++ [c]) = true := by
  cases cs with
  | nil => simp [isWord] at h
  | cons d cs => simp_all [isWord]

/-- A mark of the vocabulary has the text of its class. -/
theorem Token.ofMark_spelled {m : Mark} (h : v.hasMark m = true) :
    (Token.ofMark m p).Spelled v :=
  ⟨rfl, h⟩

namespace Scan

/-- What has been begun is a word so far, if it is to be a name, and digits, if it is to be a
number. -/
def Begun : Scan → Prop
  | .word _ reversed => isWord reversed.reverse = true
  | .number _ reversed => reversed ≠ [] ∧ ∀ c ∈ reversed, c.isDigit = true
  | _ => True

/-- A move completes tokens that are spelled as their classes say, and begins words as words. -/
def Move.Fine (v : Vocabulary) : Move → Prop
  | .on completed scan => Spelled v completed ∧ scan.Begun
  | .stop completed _ _ => Spelled v completed

/-- A word has the text of its class. -/
theorem wordToken_spelled {start : Position} {reversed : List Char}
    (h : isWord reversed.reverse = true) : (wordToken v start reversed).Spelled v := by
  unfold wordToken Token.ofWord
  split
  · next k hk => exact hk
  · next hnone => exact ⟨by simpa using h, hnone⟩

/-- A row of digits has the text of its class. -/
theorem numberToken_spelled {start : Position} {reversed : List Char} (hne : reversed ≠ [])
    (hdigits : ∀ c ∈ reversed, c.isDigit = true) :
    (token .integer start reversed).Spelled v :=
  ⟨by simpa [token] using hne, by simpa [token] using hdigits⟩

/-- A token with a text of its class may be completed. -/
theorem Move.Fine.completing (ht : t.Spelled v) (h : move.Fine v) : (move.completing t).Fine v := by
  cases move with
  | on completed scan => exact ⟨h.1.cons ht, h.2⟩
  | stop completed c position => exact Spelled.cons ht h

/-- What a character begins has a text of its class so far. -/
theorem begin_fine (v : Vocabulary) (p : Position) (c : Char) : (begin v p c).Fine v := by
  unfold begin
  split_ifs with hblank hstart hdigit
  · exact ⟨.nil, trivial⟩
  · exact ⟨.nil, by simp [Begun, isWord, hstart]⟩
  · exact ⟨.nil, by simp [Begun, hdigit]⟩
  · exact ⟨.nil, trivial⟩
  · exact ⟨.nil, trivial⟩
  · exact ⟨.nil, trivial⟩
  · exact ⟨.nil, trivial⟩
  · split
    · next m _ =>
      split
      · next hm => exact ⟨.cons (Token.ofMark_spelled hm) .nil, trivial⟩
      · exact .nil
    · exact .nil

/-- Each step of the scan completes tokens with texts of their classes. -/
theorem step_fine (v : Vocabulary) (p : Position) (c : Char) (h : scan.Begun) :
    (scan.step v p c).Fine v := by
  cases scan with
  | between => exact begin_fine v p c
  | word start reversed =>
      simp only [step]
      split
      · next hc => exact ⟨.nil, by simpa [Begun] using isWord_append h hc⟩
      · exact (begin_fine v p c).completing (wordToken_spelled h)
  | number start reversed =>
      simp only [step]
      split
      · next hc => exact ⟨.nil, by simp, by simpa [hc] using h.2⟩
      · exact (begin_fine v p c).completing (numberToken_spelled h.1 h.2)
  | string start reversed afterBackslash =>
      cases afterBackslash <;> simp only [step] <;> split
      · exact ⟨.cons trivial .nil, trivial⟩
      · exact ⟨.nil, trivial⟩
      · exact .nil
      · exact ⟨.nil, trivial⟩
  | comment =>
      simp only [step]
      split <;> exact ⟨.nil, trivial⟩
  | slash start =>
      simp only [step]
      split
      · exact ⟨.nil, trivial⟩
      · exact .nil
  | colon start =>
      simp only [step]
      split
      · exact ⟨.cons (Token.ofMark_spelled (by cases v <;> rfl)) .nil, trivial⟩
      · split
        · next hm => exact (begin_fine v p c).completing (Token.ofMark_spelled hm)
        · exact .nil
  | question start =>
      simp only [step]
      split
      · exact ⟨.cons (Token.ofMark_spelled (by cases v <;> rfl)) .nil, trivial⟩
      · exact .nil

end Scan

namespace Tokens

/-- What is left at the end has texts of its classes. -/
theorem atEnd_spelled (v : Vocabulary) (h : scan.Begun) : Spelled v (atEnd v scan).list := by
  cases scan with
  | word start reversed => exact .cons (Scan.wordToken_spelled h) .nil
  | number start reversed => exact .cons (Scan.numberToken_spelled h.1 h.2) .nil
  | colon start =>
      simp only [atEnd]
      split
      · next hm => exact .cons (Token.ofMark_spelled hm) .nil
      · exact .nil
  | between | comment | string | slash | question => exact .nil

/-- The tokens of a scan have texts of their classes. -/
theorem scanFrom_spelled (v : Vocabulary) (h : scan.Begun) (p : Position) (cs : List Char) :
    Spelled v (scanFrom v scan p cs).list := by
  induction cs generalizing scan p with
  | nil => exact atEnd_spelled v h
  | cons c cs ih =>
    have hfine := Scan.step_fine v p c h
    rw [scanFrom]
    split
    · next completed scan hmove =>
      rw [hmove] at hfine
      exact hfine.1.append (ih hfine.2 (p.next c))
    · next completed bad place hmove =>
      rw [hmove] at hfine
      exact hfine

/-- The tokens of a source text have texts of their classes. -/
theorem ofText_spelled (v : Vocabulary) (cs : List Char) : Spelled v (ofText v cs).list :=
  scanFrom_spelled v (show Scan.Begun .between from trivial) .start cs

/-- The names among the tokens of a source text are words. -/
theorem ofText_wellNamed (v : Vocabulary) (cs : List Char) : WellNamed (ofText v cs).list :=
  fun t ht => (ofText_spelled v cs t ht).wellNamed

end Tokens

end AnonymousObjects.Syntax
