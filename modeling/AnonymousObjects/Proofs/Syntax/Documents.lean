import AnonymousObjects.Proofs.Syntax.Grammar.Programs
import AnonymousObjects.Proofs.Syntax.Printing.Rows
import AnonymousObjects.Syntax.Document
import AnonymousObjects.Text.NameTable

/-!
# Texts that make no document

A source text is a program or is refused with one error of the parser at a place in the file,
whatever its characters, tokens and escapes are, with one exception. In an `Overlong` text the
tokens derive from the grammar, but the first literal that stands for no value is an integer with
more digits than numbers may have. Reading it fails with the number of digits, which is neither a
program nor a diagnostic. `Document.ofText_settled_iff` says that no other text fails, and which
texts are programs.
-/

namespace AnonymousObjects.Syntax

/-! ## Literals that stand for no value -/

/-- The number of digits is at fault in the integers that are too long, and only there. -/
theorem Token.fault?_longInteger_iff [Text.CharacterNames] {t : Token} {digits : Nat} :
    t.fault? = some (.longInteger digits) ↔
      t.kind = .integer ∧ t.text.length = digits ∧ Text.Decimal.digitLimit < digits := by
  obtain ⟨kind, text, position⟩ := t
  cases kind with
  | integer =>
      simp only [fault?, true_and]
      split
      · next hshort =>
        constructor
        · intro h
          cases h
        · intro ⟨hlength, hlong⟩
          omega
      · next hlong =>
        constructor
        · intro h
          cases h
          exact ⟨rfl, by omega⟩
        · intro ⟨hlength, _⟩
          rw [hlength]
  | string =>
      simp only [fault?]
      split <;> simp
  | name | keyword | mark => simp [fault?]

/-- The first token of a row that stands for no value. -/
def firstFaulty? [Text.CharacterNames] (ts : List Token) : Option Token :=
  ts.find? (·.fault?.isSome)

/-- An integer that is too long is the error of a row if it is the first token with a fault. -/
theorem faultIn_longInteger_iff [Text.CharacterNames] {ts : List Token} {digits : Nat} :
    faultIn ts = some (.longInteger digits) ↔
      ∃ t, firstFaulty? ts = some t ∧ t.fault? = some (.longInteger digits) := by
  induction ts with
  | nil => simp [faultIn, firstFaulty?]
  | cons u us ih =>
    rw [faultIn, firstFaulty?]
    cases hfault : u.fault? with
    | none =>
      rw [List.find?_cons_of_neg (by simp [hfault])]
      exact ih
    | some fault =>
      rw [List.find?_cons_of_pos (by simp [hfault])]
      cases fault <;> simp [hfault]

/-! ## Texts that fail -/

section

variable {σ α : Type} {v : Vocabulary} {shift : σ → Token → Option σ} {value? : σ → Option α}
  {start : σ}

/-- A row is read if nothing unreadable follows it and all its tokens are added to a reading that
has a value then. -/
theorem readTokens_eq_ok_iff {tokens : Tokens} {a : α} :
    readTokens shift value? start tokens = .ok a ↔
      tokens.unreadable = none ∧ ∃ r, feed shift start tokens.list = .ok r ∧ value? r = some a := by
  unfold readTokens
  constructor
  · intro h
    split at h
    · cases h
    · cases h
    · next r hfeed hunreadable =>
      split at h
      · next b hvalue =>
        obtain rfl : b = a := Except.ok.inj h
        exact ⟨hunreadable, r, hfeed, hvalue⟩
      · cases h
  · intro ⟨hunreadable, r, hfeed, hvalue⟩
    simp [hunreadable, hfeed, hvalue]

/-- A text has a value if its row is read with that value and has no error. -/
theorem readText_eq_ok_iff [Text.CharacterNames] {source : List Char} {a : α} :
    readText v shift value? start source = .ok a ↔
      readTokens shift value? start (Tokens.ofText v source) = .ok a ∧
        faultIn (Tokens.ofText v source).list = none := by
  unfold readText
  cases hread : readTokens shift value? start (Tokens.ofText v source) with
  | error e => simp [hread]
  | ok b => cases hfault : faultIn (Tokens.ofText v source).list <;> simp [hread, hfault]

/-- A text fails if its row is read and has an integer that is too long as its error. -/
theorem readText_longInteger_iff [Text.CharacterNames] {source : List Char} {digits : Nat} :
    readText v shift value? start source = .error (.longInteger digits) ↔
      (∃ a, readTokens shift value? start (Tokens.ofText v source) = .ok a) ∧
        faultIn (Tokens.ofText v source).list = some (.longInteger digits) := by
  unfold readText
  cases hread : readTokens shift value? start (Tokens.ofText v source) with
  | error e => simp [hread]
  | ok a => cases hfault : faultIn (Tokens.ofText v source).list <;> simp [hread, hfault]

end

/-- A text that is a program but for literals that stand for no value: there are tokens to its end,
and they derive from the grammar. -/
structure Derives [Text.CharacterNames] (source : List Char) (p : Program) : Prop where
  readable : (Tokens.ofText .program source).unreadable = none
  derivation : ∃ d : Grammar.Program,
    d.tokens = (Tokens.ofText .program source).list ∧ d.build = p

/-- A text of which an integer with this number of digits is the first literal that stands for no
value, and all else is as in a program. -/
structure Overlong [Text.CharacterNames] (source : List Char) (digits : Nat) : Prop where
  derives : ∃ p, Derives source p
  integer : ∃ t, firstFaulty? (Tokens.ofText .program source).list = some t ∧
    t.kind = .integer ∧ t.text.length = digits ∧ Text.Decimal.digitLimit < digits

namespace Program

variable {source : List Char}

/-- The tokens of a text are read as a program exactly where the text derives it. -/
theorem readTokens_iff_derives [Text.CharacterNames] {p : Program} :
    readTokens ProgramReading.shift ProgramReading.value? .start (Tokens.ofText .program source) =
      .ok p ↔ Derives source p := by
  rw [readTokens_eq_ok_iff, Grammar.Program.feed_iff_derivation]
  exact ⟨fun h => ⟨h.1, h.2⟩, fun h => ⟨h.readable, h.derivation⟩⟩

/-- A text is a program if it derives one and its literals stand for values. -/
theorem parse_eq_ok_iff [Text.CharacterNames] {p : Program} :
    Program.parse source = .ok p ↔
      Derives source p ∧ ∀ t ∈ (Tokens.ofText .program source).list, t.fault? = none := by
  unfold parse
  rw [readText_eq_ok_iff, readTokens_iff_derives, faultIn_eq_none_iff]

/-- Reading a program fails in overlong texts, and only there. -/
theorem parse_longInteger_iff [Text.CharacterNames] {digits : Nat} :
    Program.parse source = .error (.longInteger digits) ↔ Overlong source digits := by
  unfold parse
  rw [readText_longInteger_iff, faultIn_longInteger_iff]
  simp only [readTokens_iff_derives, Token.fault?_longInteger_iff]
  exact ⟨fun h => ⟨h.1, h.2⟩, fun h => ⟨h.derives, h.integer⟩⟩

end Program

namespace Document

/-! ## What becomes of a text -/

/-- A program, or one error of the parser at a place in the file. -/
def Settled (file : Option String) : Document → Prop
  | program _ => True
  | refused d => d.phase = "parser" ∧ d.severity = "error" ∧ d.code = none ∧
      ∃ p, d.span = .ofPosition file (some p)
  | longInteger _ => False

variable {file : Option String} {source : List Char}

/-- Only the failure of an integer is not settled. -/
theorem ofText_settled [Text.CharacterNames]
    (h : ∀ digits, Program.parse source ≠ .error (.longInteger digits)) :
    (ofText file source).Settled file := by
  unfold ofText
  split
  · trivial
  · exact ⟨rfl, rfl, rfl, _, rfl⟩
  · next digits hparse => exact absurd hparse (h digits)

/-- A document is a program if its text is read as that. -/
theorem ofText_program_iff [Text.CharacterNames] {p : Program} :
    ofText file source = .program p ↔ Program.parse source = .ok p := by
  unfold ofText
  cases Program.parse source with
  | ok q => simp
  | error e => cases e <;> simp

/-- A document fails if its text cannot be read for an integer. -/
theorem ofText_longInteger_iff [Text.CharacterNames] {digits : Nat} :
    ofText file source = .longInteger digits ↔
      Program.parse source = .error (.longInteger digits) := by
  unfold ofText
  cases Program.parse source with
  | ok q => simp
  | error e => cases e <;> simp

/-- Every text is a program or is refused with one error of the parser at a place in the file,
except those that are overlong. They fail with the number of digits of the integer. The programs are
the texts that derive from the grammar and whose literals stand for values. -/
theorem ofText_settled_iff [Text.CharacterNames] (file : Option String) (source : List Char) :
    ((ofText file source).Settled file ↔ ∀ digits, ¬ Overlong source digits) ∧
      (∀ digits, ofText file source = .longInteger digits ↔ Overlong source digits) ∧
      ∀ p, ofText file source = .program p ↔
        Derives source p ∧ ∀ t ∈ (Tokens.ofText .program source).list, t.fault? = none := by
  have hfails : ∀ digits, ofText file source = .longInteger digits ↔ Overlong source digits := by
    intro digits
    rw [ofText_longInteger_iff, Program.parse_longInteger_iff]
  refine ⟨⟨?_, ?_⟩, hfails, ?_⟩
  · intro hsettled digits hlong
    rw [(hfails digits).mpr hlong] at hsettled
    exact hsettled
  · intro hnone
    apply ofText_settled
    intro digits hparse
    exact hnone digits (Program.parse_longInteger_iff.mp hparse)
  · intro p
    rw [ofText_program_iff, Program.parse_eq_ok_iff]

/-- The bytes of a file are a program or are refused with one error of the parser at a place in the
file, unless they are those of an overlong text. -/
theorem ofBytes_settled [Text.CharacterNames] {file : String} {bytes : List UInt8}
    (h : ∀ source, Text.Utf8.decode bytes = .ok source → ∀ digits, ¬ Overlong source digits) :
    (ofBytes file bytes).Settled (some file) := by
  unfold ofBytes
  split
  · exact ⟨rfl, rfl, rfl, _, rfl⟩
  · next source hsource =>
    apply ofText_settled
    intro digits hparse
    exact h source hsource digits (Program.parse_longInteger_iff.mp hparse)

/-! ## A constant with too many digits -/

/-- The declaration of a constant `x`, written with one blank between its tokens. -/
def constant (number : List Char) : Grammar.Program :=
  [.member (.value (.const ⟨⟨.keyword .const, "const", ⟨1, 1⟩⟩, rfl⟩) ⟨⟨.name, "x", ⟨1, 7⟩⟩, rfl⟩
    ⟨.ofMark .equal ⟨1, 9⟩, rfl⟩
    (.chain (.primary (.integer ⟨⟨.integer, String.ofList number, ⟨1, 11⟩⟩, rfl⟩)))
    ⟨.ofMark .semicolon (Position.after ⟨1, 11⟩ number), rfl⟩)]

/-- A constant of a number has the tokens of its declaration. -/
theorem tokens_constant {number : List Char} (hne : number ≠ [])
    (hdigits : ∀ c ∈ number, c.isDigit = true) :
    Tokens.ofText .program ("const x = ".toList ++ (number ++ [';'])) =
      ⟨(constant number).tokens, none⟩ := by
  have hbreaks : Breaks [';'] := by
    intro c hc
    obtain rfl : ';' = c := by simpa using hc
    rfl
  have hstart : Tokens.ofText .program ("const x = ".toList ++ (number ++ [';'])) =
      .prepend [⟨.keyword .const, "const", ⟨1, 1⟩⟩, ⟨.name, "x", ⟨1, 7⟩⟩, .ofMark .equal ⟨1, 9⟩]
        (Tokens.scanFrom .program .between ⟨1, 11⟩ (number ++ [';'])) := rfl
  rw [hstart, Tokens.scanFrom_startNumber ⟨1, 11⟩ hne hdigits hbreaks.not_digit]
  rfl

/-- A constant with more digits than numbers may have is overlong. -/
theorem overlong_constant [Text.CharacterNames] {number : List Char}
    (hdigits : ∀ c ∈ number, c.isDigit = true) (hlong : Text.Decimal.digitLimit < number.length) :
    Overlong ("const x = ".toList ++ (number ++ [';'])) number.length := by
  have hne : number ≠ [] := List.ne_nil_of_length_pos (by omega)
  have htokens := tokens_constant hne hdigits
  let t : Token := ⟨.integer, String.ofList number, ⟨1, 11⟩⟩
  have hfault : t.fault? = some (.longInteger number.length) :=
    Token.fault?_longInteger_iff.mpr ⟨rfl, String.length_ofList, hlong⟩
  have hfirst : firstFaulty? (constant number).tokens = some t := by
    -- The three tokens before the number are no literals.
    show List.find? (·.fault?.isSome) (t :: _) = some t
    rw [List.find?_cons_of_pos (by simp [hfault])]
  have hderives : Derives ("const x = ".toList ++ (number ++ [';'])) (constant number).build := by
    refine ⟨?_, constant number, ?_, rfl⟩
    · rw [htokens]
    · rw [htokens]
  refine ⟨⟨_, hderives⟩, t, ?_, rfl, String.length_ofList, hlong⟩
  rw [htokens]
  exact hfirst

/-- A constant of one digit too many is no program, and there is no diagnostic for it. -/
theorem ofText_unsettled_of_constant :
    let source := "const x = ".toList ++ (List.replicate 4301 '1' ++ [';'])
    ofText none source = .longInteger 4301 ∧ ¬ (ofText none source).Settled none := by
  intro source
  have hdigits : ∀ c ∈ List.replicate 4301 '1', c.isDigit = true := by
    intro c hc
    rw [List.eq_of_mem_replicate hc]
    rfl
  have hlength : (List.replicate 4301 '1').length = 4301 := List.length_replicate
  have hlong : Overlong source 4301 := by
    have h := overlong_constant hdigits (by rw [hlength]; decide)
    rwa [hlength] at h
  have hfails : ofText none source = .longInteger 4301 :=
    ofText_longInteger_iff.mpr (Program.parse_longInteger_iff.mpr hlong)
  refine ⟨hfails, ?_⟩
  rw [hfails]
  exact id

end Document

end AnonymousObjects.Syntax
