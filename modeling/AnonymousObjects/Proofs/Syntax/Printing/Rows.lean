import AnonymousObjects.Proofs.Syntax.Printing.Literals
import AnonymousObjects.Proofs.Syntax.Words
import Mathlib.Data.List.Chain

/-!
# Rows of tokens are read back

A row of tokens is written with blanks around operators and inside braces. `ofText_spelled` says
that the text has the tokens of the row, each where it stands now, if no two words or numbers stand
side by side.
-/

namespace AnonymousObjects.Syntax

/-! ## Writing -/

namespace TokenKind

/-- A blank stands in front of binary operators and of the brace that closes a creation. -/
def blankBefore : TokenKind → List Char
  | .mark .plus | .mark .equal | .mark .closeBrace => [' ']
  | _ => []

/-- A blank stands after binary operators, commas, `new` and its brace. -/
def blankAfter : TokenKind → List Char
  | .mark .plus | .mark .equal | .mark .comma | .mark .openBrace | .keyword .new => [' ']
  | _ => []

/-- Words and numbers, which must not stand side by side. -/
def isSolid : TokenKind → Bool
  | .name | .integer | .keyword _ => true
  | .string | .mark _ => false

/-- What stands before a printed token is blank. -/
theorem blankBefore_blank (k : TokenKind) : ∀ c ∈ k.blankBefore, c = ' ' := by
  unfold blankBefore
  split <;> simp

/-- What stands after a printed token is blank. -/
theorem blankAfter_blank (k : TokenKind) : ∀ c ∈ k.blankAfter, c = ' ' := by
  unfold blankAfter
  split <;> simp

end TokenKind

/-- Not two words or numbers. -/
def Token.Apart (t u : Token) : Prop :=
  t.kind.isSolid = true → u.kind.isSolid = false

/-- A token as it is written, with blanks. -/
def Token.written (t : Token) : List Char :=
  t.kind.blankBefore ++ t.text.toList ++ t.kind.blankAfter

/-- A text that ends no string, read from inside the quotation marks. -/
def staysQuoted : (afterBackslash : Bool) → List Char → Bool
  | false, [] => true
  | true, [] => false
  | false, c :: cs => c ≠ '"' && staysQuoted (c = '\\') cs
  | true, c :: cs => c ≠ '\n' && staysQuoted false cs

/-- A guarded text ends no string. -/
theorem staysQuoted_guardedChars (cs : List Char) :
    staysQuoted false (Text.Escape.guardedChars cs) = true := by
  induction cs with
  | nil => rfl
  | cons c cs ih =>
    simp only [Text.Escape.guardedChars] at ih
    by_cases hguard : c = '\\' ∨ c = '"'
    · have hc : c ≠ '\n' := by
        intro h
        subst h
        simp at hguard
      simp [Text.Escape.guardedChars, hguard, staysQuoted, hc, ih]
    · have hguard' := not_or.mp hguard
      simp [Text.Escape.guardedChars, hguard'.1, hguard'.2, staysQuoted, ih]

/-- A string token has quotation marks around a text that does not end it. -/
def Token.Quoted (t : Token) : Prop :=
  t.kind = .string → ∃ body, t.text.toList = '"' :: (body ++ ['"']) ∧ staysQuoted false body = true

/-- A token at another place. -/
def Token.at (t : Token) (p : Position) : Token :=
  ⟨t.kind, t.text, p⟩

/-! ## Reading -/

/-- A text that goes on with no character of a word. -/
def Breaks (cs : List Char) : Prop :=
  ∀ c ∈ cs.head?, inWord c = false

/-- Blanks end a word wherever what follows them does. -/
theorem Breaks.blanks_append {blanks rest : List Char} (hblanks : ∀ c ∈ blanks, c = ' ')
    (hrest : Breaks rest) : Breaks (blanks ++ rest) := by
  cases blanks with
  | nil => exact hrest
  | cons c blanks =>
    obtain rfl : c = ' ' := hblanks c (by simp)
    intro d hd
    obtain rfl : ' ' = d := by simpa using hd
    rfl

/-- What ends a word ends a number. -/
theorem Breaks.not_digit {cs : List Char} (h : Breaks cs) : ∀ c ∈ cs.head?, c.isDigit = false := by
  intro c hc
  have hword := h c hc
  simp only [inWord, Char.isAlphanum, Bool.or_eq_false_iff] at hword
  exact hword.1.2

/-- A token that is no word or number is written so that a word in front of it ends. -/
theorem Breaks.of_written {v : Vocabulary} {t : Token} (ht : t.Spelled v) (hquoted : t.Quoted)
    (hsolid : t.kind.isSolid = false) (rest : List Char) : Breaks (t.written ++ rest) := by
  rw [Token.written, List.append_assoc, List.append_assoc]
  apply Breaks.blanks_append t.kind.blankBefore_blank
  obtain ⟨kind, text, position⟩ := t
  cases kind with
  | name | integer | keyword => cases hsolid
  | string =>
      obtain ⟨body, htext, -⟩ := hquoted rfl
      simp only at htext
      intro c hc
      rw [htext] at hc
      obtain rfl : '"' = c := by simpa using hc
      rfl
  | mark m =>
      obtain ⟨rfl, -⟩ := ht
      intro c hc
      cases m <;>
        · simp [Mark.text] at hc
          obtain rfl := hc
          rfl

namespace Tokens

variable {v : Vocabulary} {p start : Position} {t : Token}

/-- What has been begun is a token that ends before characters of some kind and at the end. -/
theorem scanFrom_break {scan : Scan} {t : Token} (ends : Char → Prop)
    (hend : atEnd v scan = ⟨[t], none⟩)
    (hstep : ∀ p c, ends c → scan.step v p c = (Scan.begin v p c).completing t)
    (p : Position) {rest : List Char} (hrest : ∀ c ∈ rest.head?, ends c) :
    scanFrom v scan p rest = prepend [t] (scanFrom v .between p rest) := by
  cases rest with
  | nil => exact hend
  | cons c rest =>
    have hc : ends c := hrest c (by simp)
    have hbetween : Scan.step v p c .between = Scan.begin v p c := rfl
    rw [scanFrom, scanFrom, hstep p c hc, hbetween]
    cases Scan.begin v p c <;> rfl

/-- The rest of a word. -/
theorem scanFrom_word (start p : Position) (reversed : List Char) {word rest : List Char}
    (hword : ∀ c ∈ word, inWord c = true) (hrest : Breaks rest) :
    scanFrom v (.word start reversed) p (word ++ rest) =
      prepend [Scan.wordToken v start (word.reverse ++ reversed)]
        (scanFrom v .between (p.after word) rest) := by
  induction word generalizing p reversed with
  | nil =>
    exact scanFrom_break (inWord · = false) rfl (fun p c hc => by simp [Scan.step, hc]) p hrest
  | cons c word ih =>
    have hc : inWord c = true := hword c (by simp)
    simp only [List.cons_append, scanFrom, Scan.step, hc, if_true]
    rw [ih (p.next c) (c :: reversed) fun d hd => hword d (by simp [hd])]
    simp [prepend]

/-- The rest of a number. -/
theorem scanFrom_number (start p : Position) (reversed : List Char) {digits rest : List Char}
    (hdigits : ∀ c ∈ digits, c.isDigit = true) (hrest : ∀ c ∈ rest.head?, c.isDigit = false) :
    scanFrom v (.number start reversed) p (digits ++ rest) =
      prepend [Scan.token .integer start (digits.reverse ++ reversed)]
        (scanFrom v .between (p.after digits) rest) := by
  induction digits generalizing p reversed with
  | nil =>
    exact scanFrom_break (·.isDigit = false) rfl (fun p c hc => by simp [Scan.step, hc]) p hrest
  | cons c digits ih =>
    have hc : c.isDigit = true := hdigits c (by simp)
    simp only [List.cons_append, scanFrom, Scan.step, hc, if_true]
    rw [ih (p.next c) (c :: reversed) fun d hd => hdigits d (by simp [hd])]
    simp [prepend]

/-- The rest of a string. -/
theorem scanFrom_string (start p : Position) (reversed : List Char) (afterBackslash : Bool)
    {body : List Char} (hbody : staysQuoted afterBackslash body = true) (rest : List Char) :
    scanFrom v (.string start reversed afterBackslash) p (body ++ '"' :: rest) =
      prepend [Scan.token .string start ('"' :: (body.reverse ++ reversed))]
        (scanFrom v .between (p.after (body ++ ['"'])) rest) := by
  induction body generalizing p reversed afterBackslash with
  | nil =>
    cases afterBackslash with
    | false => rfl
    | true => cases hbody
  | cons c body ih =>
    cases afterBackslash with
    | false =>
      simp only [staysQuoted, Bool.and_eq_true, decide_eq_true_eq] at hbody
      simp only [List.cons_append, scanFrom, Scan.step, if_neg hbody.1]
      rw [ih (p.next c) (c :: reversed) _ hbody.2]
      simp [prepend]
    | true =>
      simp only [staysQuoted, Bool.and_eq_true, decide_eq_true_eq] at hbody
      simp only [List.cons_append, scanFrom, Scan.step, if_neg hbody.1]
      rw [ih (p.next c) (c :: reversed) _ hbody.2]
      simp [prepend]

/-- Blanks are passed over. -/
theorem scanFrom_blanks (p : Position) {blanks : List Char} (hblanks : ∀ c ∈ blanks, c = ' ')
    (rest : List Char) :
    scanFrom v .between p (blanks ++ rest) = scanFrom v .between (p.after blanks) rest := by
  induction blanks generalizing p with
  | nil => rfl
  | cons c blanks ih =>
    obtain rfl : c = ' ' := hblanks c (by simp)
    exact ih (p.next ' ') fun d hd => hblanks d (by simp [hd])

/-- A word starts with its first character. -/
theorem begin_word (p : Position) {c : Char} (hc : startsWord c = true) :
    Scan.begin v p c = .on [] (.word p [c]) := by
  have hblank : isBlank c = false := by
    by_contra h
    simp only [isBlank, Bool.not_eq_false, Bool.or_eq_true, beq_iff_eq] at h
    rcases h with (((rfl | rfl) | rfl) | rfl) | rfl <;> cases hc
  simp [Scan.begin, hblank, hc]

/-- A number starts with its first digit. -/
theorem begin_number (p : Position) {c : Char} (hc : c.isDigit = true) :
    Scan.begin v p c = .on [] (.number p [c]) := by
  have hblank : isBlank c = false := by
    by_contra h
    simp only [isBlank, Bool.not_eq_false, Bool.or_eq_true, beq_iff_eq] at h
    rcases h with (((rfl | rfl) | rfl) | rfl) | rfl <;> cases hc
  have hword : startsWord c = false := by
    have hrange : 48 ≤ c.toNat ∧ c.toNat ≤ 57 := Char.isDigit_iff_toNat.mp hc
    by_contra h
    simp only [startsWord, Bool.not_eq_false, Bool.or_eq_true, beq_iff_eq] at h
    rcases h with hletter | rfl
    · rcases Bool.or_eq_true_iff.mp (show (c.isUpper || c.isLower) = true from hletter) with h | h
      · have hupper : c.val ≥ 'A'.val ∧ c.val ≤ 'Z'.val := of_decide_eq_true h
        have hlow : 65 ≤ c.toNat := hupper.1
        omega
      · have hlower : (decide (c.val ≥ 'a'.val) && decide (c.val ≤ 'z'.val)) = true := h
        simp only [Bool.and_eq_true, decide_eq_true_eq] at hlower
        have hlow : 97 ≤ c.toNat := hlower.1
        omega
    · cases hc
  simp [Scan.begin, hblank, hword, hc]

/-- A word by itself. -/
theorem scanFrom_startWord (p : Position) {word rest : List Char} (hword : isWord word = true)
    (hrest : Breaks rest) :
    scanFrom v .between p (word ++ rest) =
      prepend [.ofWord v (String.ofList word) p] (scanFrom v .between (p.after word) rest) := by
  cases word with
  | nil => cases hword
  | cons c word =>
    simp only [isWord, Bool.and_eq_true, List.all_eq_true] at hword
    have hbegin : Scan.step v p c .between = .on [] (.word p [c]) := begin_word p hword.1
    rw [List.cons_append, scanFrom, hbegin]
    simp only
    rw [scanFrom_word p (p.next c) [c] hword.2 hrest]
    simp [prepend, Scan.wordToken]

/-- A number by itself. -/
theorem scanFrom_startNumber (p : Position) {digits rest : List Char} (hne : digits ≠ [])
    (hdigits : ∀ c ∈ digits, c.isDigit = true) (hrest : ∀ c ∈ rest.head?, c.isDigit = false) :
    scanFrom v .between p (digits ++ rest) =
      prepend [⟨.integer, String.ofList digits, p⟩]
        (scanFrom v .between (p.after digits) rest) := by
  cases digits with
  | nil => exact absurd rfl hne
  | cons c digits =>
    have hbegin : Scan.step v p c .between = .on [] (.number p [c]) :=
      begin_number p (hdigits c (by simp))
    rw [List.cons_append, scanFrom, hbegin]
    simp only
    rw [scanFrom_number p (p.next c) [c] (fun d hd => hdigits d (by simp [hd])) hrest]
    simp [prepend, Scan.token]

/-- A string by itself. -/
theorem scanFrom_quoted (p : Position) {body : List Char} (hbody : staysQuoted false body = true)
    (rest : List Char) :
    scanFrom v .between p ('"' :: (body ++ '"' :: rest)) =
      prepend [⟨.string, String.ofList ('"' :: (body ++ ['"'])), p⟩]
        (scanFrom v .between (p.after ('"' :: (body ++ ['"']))) rest) := by
  refine (scanFrom_string p (p.next '"') ['"'] false hbody rest).trans ?_
  simp [Scan.token]

/-- A keyword is a word. -/
theorem isWord_of_keyword {word : String} {k : Keyword} (h : v.keyword? word = some k) :
    isWord word.toList = true := by
  have htext : k.text = word := by simpa using List.find?_some h
  rw [← htext]
  cases k <;> rfl

/-- A token by itself. -/
theorem scanFrom_token (p : Position) (ht : t.Spelled .expression) (hquoted : t.Quoted)
    {rest : List Char} (hrest : t.kind.isSolid = true → Breaks rest) :
    scanFrom .expression .between p (t.text.toList ++ rest) =
      prepend [t.at p] (scanFrom .expression .between (p.after t.text.toList) rest) := by
  obtain ⟨kind, text, position⟩ := t
  cases kind with
  | name =>
      rw [scanFrom_startWord p ht.1 (hrest rfl)]
      simp [Token.ofWord, Token.at, ht.2]
  | integer =>
      rw [scanFrom_startNumber p ht.1 ht.2 (hrest rfl).not_digit]
      simp [Token.at]
  | string =>
      obtain ⟨body, htext, hbody⟩ := hquoted rfl
      rw [htext, List.cons_append, List.append_assoc]
      refine (scanFrom_quoted p hbody rest).trans ?_
      rw [← htext, String.ofList_toList]
      rfl
  | keyword k =>
      rw [scanFrom_startWord p (isWord_of_keyword ht) (hrest rfl)]
      simp [Token.ofWord, Token.at, show Vocabulary.expression.keyword? text = some k from ht]
  | mark m =>
      obtain ⟨rfl, hm⟩ := ht
      cases m with
      | star | colon => cases hm
      | _ =>
          simp only [Mark.text]
          exact rfl

/-- A token with its blanks. -/
theorem scanFrom_written (p : Position) (ht : t.Spelled .expression) (hquoted : t.Quoted)
    {rest : List Char} (hrest : t.kind.isSolid = true → Breaks (t.kind.blankAfter ++ rest)) :
    scanFrom .expression .between p (t.written ++ rest) =
      prepend [t.at (p.after t.kind.blankBefore)]
        (scanFrom .expression .between (p.after t.written) rest) := by
  rw [Token.written, List.append_assoc, List.append_assoc,
    scanFrom_blanks p t.kind.blankBefore_blank, scanFrom_token _ ht hquoted hrest,
    scanFrom_blanks _ t.kind.blankAfter_blank]
  simp [Position.after_append]

/-- A row is written so that its tokens are read back, each at its new place. -/
theorem scanFrom_row (p : Position) {ts : List Token} (hspelled : Spelled .expression ts)
    (hquoted : ∀ t ∈ ts, t.Quoted) (hchain : ts.IsChain Token.Apart) :
    ∃ us, scanFrom .expression .between p (ts.flatMap Token.written) = ⟨us, none⟩ ∧
      us.map (·.at .start) = ts.map (·.at .start) := by
  induction ts generalizing p with
  | nil => exact ⟨[], rfl, rfl⟩
  | cons t ts ih =>
    -- A solid token ends where its blanks begin, or else the next token, which is not solid.
    have hbreaks : t.kind.isSolid = true →
        Breaks (t.kind.blankAfter ++ ts.flatMap Token.written) := by
      intro hsolid
      apply Breaks.blanks_append t.kind.blankAfter_blank
      cases ts with
      | nil => simp [Breaks]
      | cons u ts =>
        have hsolid' : u.kind.isSolid = false := hchain.rel hsolid
        exact Breaks.of_written (hspelled u (by simp)) (hquoted u (by simp)) hsolid' _
    obtain ⟨us, hscan, hus⟩ := ih (p.after t.written) (fun u hu => hspelled u (by simp [hu]))
      (fun u hu => hquoted u (by simp [hu])) hchain.of_cons
    refine ⟨t.at (p.after t.kind.blankBefore) :: us, ?_, ?_⟩
    · rw [List.flatMap_cons,
        scanFrom_written p (hspelled t (by simp)) (hquoted t (by simp)) hbreaks, hscan]
      rfl
    · rw [List.map_cons, List.map_cons, hus]
      rfl

end Tokens

end AnonymousObjects.Syntax
