import AnonymousObjects.Proofs.Syntax.Printing.Literals
import Mathlib.Data.List.Chain

/-!
# What string literals stand for

The text between the quotation marks of a string literal is a row of `Element`s: characters, escapes
of characters, and backslashes that escape nothing. `elements` reads them from left to right, and
`reference` is the text that they stand for. Decoding spells wide characters as escapes first, and
`decode_eq` says what comes out: the text of the elements, but for a backslash that escapes nothing
in front of a wide character. There the backslash takes that of the new escape with it, and the
letters and digits of the escape are left over. So the text is the one that the elements stand for
exactly where there is no such backslash (`decode_eq_reference_iff`).
-/

namespace AnonymousObjects

namespace Text.Escape

/-! ## Reading elements -/

/-- A piece of the text between quotation marks: a character that is no backslash, the escape of a
code point, or a backslash that escapes nothing with the character after it. -/
inductive Element where
  | plain (c : Char)
  | escape (p : CodePoint)
  | kept (c : Char)
deriving DecidableEq, Repr

/-- What an element stands for. -/
def Element.text : Element → Text
  | plain c => [.ofChar c]
  | escape p => [p]
  | kept c => [.ofChar '\\', .ofChar c]

/-- The values of the octal digits that a text starts with, at most `n` of them. -/
def octalRow : (n : Nat) → List Char → List Nat
  | 0, _ => []
  | _ + 1, [] => []
  | n + 1, c :: cs =>
    match octal? c with
    | some d => d :: octalRow n cs
    | none => []

/-- The values of the first `n` characters of a text, if all of them are hexadecimal digits. -/
def hexRow : (n : Nat) → List Char → Option (List Nat)
  | 0, _ => some []
  | _ + 1, [] => none
  | n + 1, c :: cs =>
    match Hex.value? c, hexRow n cs with
    | some d, some ds => some (d :: ds)
    | _, _ => none

/-- The number that digits stand for, after those that stand for `value`. -/
def valueFrom (base value : Nat) (digits : List Nat) : Nat :=
  digits.foldl (fun value d => base * value + d) value

/-- The escape of the code point of a number. -/
def escapeOf (n : Nat) : Except Fault Element :=
  match codePoint? n with
  | some p => .ok (.escape p)
  | none => .error .illegalCodePoint

/-- The escape by name that starts with a backslash and `N` before the text, and how many characters
belong to it besides the backslash. -/
def nameAt [CharacterNames] : List Char → Except Fault (Element × Nat)
  | [] => .error .malformedName
  | c :: cs =>
    if c = '\x7b' ∧ '\x7d' ∈ cs then
      let name := cs.takeWhile (· ≠ '\x7d')
      (fun d => (.escape (.ofChar d), name.length + 3)) <$> named name
    else .error .malformedName

/-- The element that starts with a backslash before the text, and how many characters of the text
belong to it. -/
def escapeAt [CharacterNames] : List Char → Except Fault (Element × Nat)
  | [] => .error .loneBackslash
  | c :: cs =>
    match single? c, octal? c, HexForm.ofLetter? c with
    | some d, _, _ => .ok (.escape (.ofChar d), 1)
    | none, some _, _ =>
      let digits := octalRow 3 (c :: cs)
      (·, digits.length) <$> escapeOf (valueFrom 8 0 digits)
    | none, none, some form =>
      match hexRow form.width cs with
      | some digits => (·, form.width + 1) <$> escapeOf (valueFrom 16 0 digits)
      | none => .error (.truncated form)
    | none, none, none => if c = 'N' then nameAt cs else .ok (.kept c, 1)

/-- The elements of a text. -/
def elements [CharacterNames] : List Char → Except Fault (List Element)
  | [] => .ok []
  | c :: cs =>
    if c = '\\' then
      match escapeAt cs with
      | .ok (e, n) => (e :: ·) <$> elements (cs.drop n)
      | .error fault => .error fault
    else (.plain c :: ·) <$> elements cs
termination_by cs => cs.length
decreasing_by all_goals simp only [List.length_cons, List.length_drop]; omega

/-- What a text stands for, read by code points. -/
def reference [CharacterNames] (cs : List Char) : Except Fault Text :=
  (·.flatMap Element.text) <$> elements cs

/-- What decoding makes of an element. A backslash that escapes nothing takes the backslash of the
escape that a wide character is spelled as, so that the spelling stays. -/
def Element.decoded : Element → Text
  | plain c => [.ofChar c]
  | escape p => [p]
  | kept c =>
    if c.toNat ≤ 0xFF then [.ofChar '\\', .ofChar c]
    else (Quoted.codeEscape c.toNat).map .ofChar

variable {c : Char} {cs : List Char} {f : Fault}

/-! ## Wide characters -/

/-- A character up to `U+00FF` is kept. -/
theorem narrowed_cons_of_narrow (h : c.toNat ≤ 0xFF) (cs : List Char) :
    narrowed (c :: cs) = c :: narrowed cs := by
  simp [narrowed, h]

/-- A text of characters up to `U+00FF` is kept. -/
theorem narrowed_of_narrow (h : ∀ c ∈ cs, c.toNat ≤ 0xFF) : narrowed cs = cs := by
  induction cs with
  | nil => rfl
  | cons c cs ih =>
      obtain ⟨hc, hcs⟩ := List.forall_mem_cons.mp h
      rw [narrowed_cons_of_narrow hc, ih hcs]

/-- A character above `U+00FF` is spelled as an escape. -/
theorem narrowed_cons_of_wide (h : ¬ c.toNat ≤ 0xFF) (cs : List Char) :
    narrowed (c :: cs) = Quoted.codeEscape c.toNat ++ narrowed cs := by
  simp [narrowed, h]

/-- A wide character is spelled as a backslash with letters and digits. -/
theorem codeEscape_of_wide (h : ¬ c.toNat ≤ 0xFF) :
    ∃ letters, Quoted.codeEscape c.toNat = '\\' :: letters ∧
      ∀ d ∈ letters, d.isAlphanum = true := by
  have hdigits : ∀ width n, ∀ d ∈ Hex.digits width n, d.isAlphanum = true := by
    intro width
    induction width with
    | zero => simp [Hex.digits]
    | succ width ih =>
        intro n d hd
        rcases List.mem_append.mp hd with hd | hd
        · exact ih _ d hd
        · have hall : ∀ m : Fin 16, (Hex.digit m.val).isAlphanum = true := by decide
          rw [List.mem_singleton.mp hd]
          exact hall ⟨n % 16, Nat.mod_lt _ (by decide)⟩
  unfold Quoted.codeEscape
  rw [if_neg h]
  split
  · exact ⟨_, rfl, List.forall_mem_cons.mpr ⟨by decide, hdigits 4 _⟩⟩
  · exact ⟨_, rfl, List.forall_mem_cons.mpr ⟨by decide, hdigits 8 _⟩⟩

/-- No character above `U+00FF` is the letter of an escape. -/
theorem single?_of_wide (h : ¬ c.toNat ≤ 0xFF) : single? c = none := by
  unfold single?
  split <;> first | rfl | exact absurd (by decide) h

/-- No character above `U+00FF` is an octal digit. -/
theorem octal?_of_wide (h : ¬ c.toNat ≤ 0xFF) : octal? c = none := by
  refine if_neg fun ⟨_, hle⟩ => h ?_
  exact Nat.le_trans hle (by decide)

/-- No character above `U+00FF` starts a hexadecimal escape. -/
theorem ofLetter?_of_wide (h : ¬ c.toNat ≤ 0xFF) : HexForm.ofLetter? c = none := by
  unfold HexForm.ofLetter?
  split <;> first | rfl | exact absurd (by decide) h

/-- No character above `U+00FF` is a hexadecimal digit. -/
theorem hexValue?_of_wide (h : ¬ c.toNat ≤ 0xFF) : Hex.value? c = none := by
  unfold Hex.value?
  split_ifs with hdigit hlower hupper
  · exact absurd (Nat.le_trans hdigit.2 (by decide)) h
  · exact absurd (Nat.le_trans hlower.2 (by decide)) h
  · exact absurd (Nat.le_trans hupper.2 (by decide)) h
  · rfl

/-- The characters that stand in names are ASCII. -/
theorem toNat_lt_of_inCharacterName (h : inCharacterName c = true) : c.toNat < 128 := by
  have hbound {high : Char} (hhigh : high.toNat < 128) (hc : c ≤ high) : c.toNat < 128 :=
    Nat.lt_of_le_of_lt hc hhigh
  rcases Bool.or_eq_true_iff.mp h with h | h
  · rcases Bool.or_eq_true_iff.mp h with h | h
    · rcases Bool.or_eq_true_iff.mp h with hletter | hdigit
      · rcases Bool.or_eq_true_iff.mp hletter with hupper | hlower
        · have hrange : 'A' ≤ c ∧ c ≤ 'Z' := of_decide_eq_true hupper
          exact hbound (by decide) hrange.2
        · have hrange := Bool.and_eq_true_iff.mp hlower
          have hle : c ≤ 'z' := of_decide_eq_true hrange.2
          exact hbound (by decide) hle
      · exact hbound (by decide) (show c ≤ '9' from (Char.isDigit_iff_toNat.mp hdigit).2)
    · obtain rfl := eq_of_beq h
      decide
  · obtain rfl := eq_of_beq h
    decide

/-- A wide character stands in no name. -/
theorem not_inCharacterName_of_wide (h : ¬ c.toNat ≤ 0xFF) : inCharacterName c = false := by
  refine Bool.eq_false_iff.mpr fun hin => h ?_
  have hlt := toNat_lt_of_inCharacterName hin
  omega

/-- Two texts are spelled one after the other. -/
theorem narrowed_append (cs ds : List Char) : narrowed (cs ++ ds) = narrowed cs ++ narrowed ds :=
  List.flatMap_append

/-- A text is spelled without a closing brace exactly if it has none. -/
theorem brace_mem_narrowed : '\x7d' ∈ narrowed cs ↔ '\x7d' ∈ cs := by
  have hsame : ∀ c : Char, '\x7d' ∈ narrowed [c] ↔ '\x7d' = c := by
    intro c
    by_cases h : c.toNat ≤ 0xFF
    · simp [narrowed, h]
    · obtain ⟨letters, hspelled, hletters⟩ := codeEscape_of_wide h
      have hmem : '\x7d' ∉ letters := fun hmem => absurd (hletters _ hmem) (by decide)
      have hne : '\x7d' ≠ c := fun heq => h (heq ▸ by decide)
      simp [narrowed, h, hspelled, hmem, hne]
  have hflat : narrowed cs = cs.flatMap fun c => narrowed [c] := by simp [narrowed]
  rw [hflat, List.mem_flatMap]
  simp [hsame]

/-! ## Names -/

/-- A text with a character that stands in no name names no character. -/
theorem named_of_mem [CharacterNames] {name : List Char} (hc : c ∈ name)
    (hout : inCharacterName c = false) : named name = .error .unknownName := by
  have hempty : name.isEmpty = false := List.isEmpty_eq_false_iff.mpr (List.ne_nil_of_mem hc)
  unfold named
  rw [if_neg (by simp [hempty])]
  cases hfound : CharacterNames.find? name with
  | none => rfl
  | some d =>
      have hin := List.all_eq_true.mp (CharacterNames.all_inCharacterName hfound) c hc
      rw [hout] at hin
      cases hin

/-- Spelling wide characters as escapes changes no name. -/
theorem named_narrowed [CharacterNames] (name : List Char) :
    named (narrowed name) = named name := by
  by_cases hnarrow : ∀ c ∈ name, c.toNat ≤ 0xFF
  · rw [narrowed_of_narrow hnarrow]
  · push Not at hnarrow
    obtain ⟨c, hc, hwide⟩ := hnarrow
    have hwide : ¬ c.toNat ≤ 0xFF := Nat.not_le.mpr hwide
    obtain ⟨letters, hspelled, -⟩ := codeEscape_of_wide hwide
    have hslash : '\\' ∈ narrowed name :=
      List.mem_flatMap.mpr ⟨c, hc, by simp [hwide, hspelled]⟩
    rw [named_of_mem hc (not_inCharacterName_of_wide hwide), named_of_mem hslash (by decide)]

/-- An escape by name goes up to the closing brace. -/
theorem nameAt_of_closed [CharacterNames] {name : List Char} (h : '\x7d' ∉ name)
    (rest : List Char) :
    nameAt ('\x7b' :: (name ++ '\x7d' :: rest)) =
      (fun d => (.escape (.ofChar d), name.length + 3)) <$> named name := by
  have htake : (name ++ '\x7d' :: rest).takeWhile (· ≠ '\x7d') = name := by
    have hbefore : ∀ d ∈ name, decide (d ≠ '\x7d') = true := by
      intro d hd
      exact decide_eq_true fun heq => h (heq ▸ hd)
    rw [List.takeWhile_append_of_pos hbefore]
    simp
  rw [nameAt, if_pos ⟨rfl, by simp⟩, htake]

/-- Without a closing brace there is no name. -/
theorem decodeFrom_name_of_open [CharacterNames] (reversed : List Char) (h : '\x7d' ∉ cs) :
    decodeFrom (.name reversed) cs = .error .malformedName := by
  induction cs generalizing reversed with
  | nil => rfl
  | cons c cs ih =>
      obtain ⟨hc, hrest⟩ := not_or.mp (mt List.mem_cons.mpr h)
      rw [decodeFrom, if_neg (Ne.symm hc), ih _ hrest]

/-- A name ends with the first closing brace. -/
theorem decodeFrom_name [CharacterNames] (reversed : List Char) {name : List Char}
    (h : '\x7d' ∉ name) (rest : List Char) :
    decodeFrom (.name reversed) (name ++ '\x7d' :: rest) =
      match named (reversed.reverse ++ name) with
      | .ok d => (CodePoint.ofChar d :: ·) <$> decodeFrom .plain rest
      | .error fault => .error fault := by
  induction name generalizing reversed with
  | nil =>
      rw [List.nil_append, decodeFrom, if_pos rfl, List.append_nil]
      cases named reversed.reverse <;> rfl
  | cons c name ih =>
      obtain ⟨hc, hname⟩ := not_or.mp (mt List.mem_cons.mpr h)
      rw [List.cons_append, decodeFrom, if_neg (Ne.symm hc), ih _ hname]
      simp

/-! ## Rows of digits -/

/-- Characters that are no backslashes are decoded to themselves. -/
theorem decodeFrom_letters [CharacterNames] {letters : List Char} (h : ∀ d ∈ letters, d ≠ '\\')
    (rest : List Char) :
    decodeFrom .plain (letters ++ rest) =
      (letters.map CodePoint.ofChar ++ ·) <$> decodeFrom .plain rest := by
  induction letters with
  | nil => simp
  | cons d letters ih =>
      obtain ⟨hd, hletters⟩ := List.forall_mem_cons.mp h
      simp [decodeFrom, hd, ih hletters]

/-- Octal digits end where another character stands. -/
theorem decodeFrom_octal_of_stop [CharacterNames] {left value : Nat}
    (h : ∀ c ∈ cs.head?, octal? c = none) : decodeFrom (.octal left value) cs =
      ((codePoint? value).toList ++ ·) <$> decodeFrom .plain cs := by
  cases cs with
  | nil => simp [decodeFrom, Functor.map, Except.map]
  | cons c cs =>
      have hc : octal? c = none := h c rfl
      by_cases hslash : c = '\\'
      · subst hslash
        simp [decodeFrom, hc]
      · simp [decodeFrom, hc, hslash]

/-- What is no octal digit is not spelled by one. -/
theorem octal?_head_narrowed (h : octal? c = none) :
    ∀ d ∈ (narrowed (c :: cs)).head?, octal? d = none := by
  by_cases hwide : c.toNat ≤ 0xFF
  · simpa [narrowed_cons_of_narrow hwide] using h
  · obtain ⟨letters, hspelled, -⟩ := codeEscape_of_wide hwide
    simp only [narrowed_cons_of_wide hwide, hspelled, List.cons_append, List.head?_cons,
      Option.mem_some_iff, forall_eq']
    decide

/-- Octal digits, of which more may come, are decoded to the code point of the number that the
whole row of them stands for. -/
theorem decodeFrom_octalRow [CharacterNames] (left value : Nat) (cs : List Char) :
    decodeFrom (.octal (left + 1) value) (narrowed cs) =
      ((codePoint? (valueFrom 8 value (octalRow (left + 1) cs))).toList ++ ·) <$>
        decodeFrom .plain (narrowed (cs.drop (octalRow (left + 1) cs).length)) := by
  induction cs generalizing left value with
  | nil => exact decodeFrom_octal_of_stop (by simp [narrowed])
  | cons c cs ih =>
      cases hc : octal? c with
      | none =>
          have hrow : octalRow (left + 1) (c :: cs) = [] := by simp [octalRow, hc]
          rw [hrow]
          exact decodeFrom_octal_of_stop (octal?_head_narrowed hc)
      | some d =>
          have hnarrow : c.toNat ≤ 0xFF := by
            by_contra hwide
            rw [octal?_of_wide hwide] at hc
            cases hc
          have hrow : octalRow (left + 1) (c :: cs) = d :: octalRow left cs := by
            simp [octalRow, hc]
          rw [hrow, narrowed_cons_of_narrow hnarrow]
          cases left with
          | zero => simp [decodeFrom, hc, octalRow, valueFrom]
          | succ left => simpa [decodeFrom, hc, valueFrom] using ih left (8 * value + d)

/-- Hexadecimal digits, all of which are still to come, are decoded to the code point of the number
that they stand for. -/
theorem decodeFrom_hexRow [CharacterNames] (form : HexForm) (left value : Nat)
    (cs : List Char) : decodeFrom (.hex form (left + 1) value) (narrowed cs) =
      match hexRow (left + 1) cs with
      | none => .error (.truncated form)
      | some digits =>
        match codePoint? (valueFrom 16 value digits) with
        | none => .error .illegalCodePoint
        | some p => (p :: ·) <$> decodeFrom .plain (narrowed (cs.drop (left + 1))) := by
  induction cs generalizing left value with
  | nil => rfl
  | cons c cs ih =>
      cases hc : Hex.value? c with
      | none =>
          have hrow : hexRow (left + 1) (c :: cs) = none := by simp [hexRow, hc]
          rw [hrow]
          by_cases hwide : c.toNat ≤ 0xFF
          · simp [narrowed_cons_of_narrow hwide, decodeFrom, hc]
          -- A wide character stands as an escape here, and its backslash is no digit either.
          · obtain ⟨letters, hspelled, -⟩ := codeEscape_of_wide hwide
            have hslash : Hex.value? '\\' = none := by decide
            simp [narrowed_cons_of_wide hwide, hspelled, decodeFrom, hslash]
      | some d =>
          have hnarrow : c.toNat ≤ 0xFF := by
            by_contra hwide
            rw [hexValue?_of_wide hwide] at hc
            cases hc
          rw [narrowed_cons_of_narrow hnarrow]
          cases left with
          | zero => cases hpoint : codePoint? (16 * value + d) <;>
              simp [decodeFrom, hc, hexRow, valueFrom, hpoint]
          | succ left =>
              have hrest := ih left (16 * value + d)
              cases hdigits : hexRow (left + 1) cs <;>
                simp_all [decodeFrom, hexRow, valueFrom]

/-! ## Elements -/

/-- Octal digits are less than eight. -/
theorem octal?_lt {d : Nat} (h : octal? c = some d) : d < 8 := by
  unfold octal? at h
  split at h
  · next hrange =>
    have hle : c.toNat ≤ 55 := hrange.2
    cases h
    omega
  · cases h

/-- A row of octal digits has values less than eight. -/
theorem octalRow_lt (n : Nat) (cs : List Char) : ∀ d ∈ octalRow n cs, d < 8 := by
  induction n generalizing cs with
  | zero => simp [octalRow]
  | succ n ih =>
      cases cs with
      | nil => simp [octalRow]
      | cons c cs =>
          cases hc : octal? c with
          | none => simp [octalRow, hc]
          | some d => simpa [octalRow, hc] using ⟨octal?_lt hc, ih cs⟩

/-- A row has at most as many digits as were asked for. -/
theorem length_octalRow_le (n : Nat) (cs : List Char) : (octalRow n cs).length ≤ n := by
  induction n generalizing cs with
  | zero => simp [octalRow]
  | succ n ih =>
      cases cs with
      | nil => simp [octalRow]
      | cons c cs => cases hc : octal? c <;> simp [octalRow, hc, ih]

/-- A number is less than the power of the base that its digits allow. -/
theorem valueFrom_lt {base value : Nat} {digits : List Nat} (h : ∀ d ∈ digits, d < base) :
    valueFrom base value digits < (value + 1) * base ^ digits.length := by
  induction digits generalizing value with
  | nil => simp [valueFrom]
  | cons d digits ih =>
      obtain ⟨hd, hdigits⟩ := List.forall_mem_cons.mp h
      calc valueFrom base value (d :: digits)
          < (base * value + d + 1) * base ^ digits.length := ih hdigits
        _ ≤ (value + 1) * base * base ^ digits.length := by
          refine Nat.mul_le_mul_right _ ?_
          rw [Nat.add_mul, Nat.mul_comm base]
          omega
        _ = (value + 1) * base ^ (d :: digits).length := by
          rw [List.length_cons, Nat.pow_succ, Nat.mul_assoc, Nat.mul_comm base]

/-- Three octal digits stand for a code point. -/
theorem codePoint?_octalRow (cs : List Char) :
    ∃ p, codePoint? (valueFrom 8 0 (octalRow 3 cs)) = some p := by
  have hlt : valueFrom 8 0 (octalRow 3 cs) < (0 + 1) * 8 ^ (octalRow 3 cs).length :=
    valueFrom_lt (octalRow_lt 3 cs)
  have hpow : 8 ^ (octalRow 3 cs).length ≤ 8 ^ 3 :=
    Nat.pow_le_pow_right (by decide) (length_octalRow_le 3 cs)
  have hbound : valueFrom 8 0 (octalRow 3 cs) < 0x110000 := by omega
  exact ⟨⟨_, hbound⟩, dif_pos hbound⟩

/-- A wide character after a backslash is kept with it. -/
theorem escapeAt_of_wide [CharacterNames] (h : ¬ c.toNat ≤ 0xFF) (cs : List Char) :
    escapeAt (c :: cs) = .ok (.kept c, 1) := by
  have hname : c ≠ 'N' := fun heq => h (heq ▸ by decide)
  simp [escapeAt, single?_of_wide h, octal?_of_wide h, ofLetter?_of_wide h, hname]

/-- Behind a backslash and `N`, decoding makes of the name what it makes of it by itself. -/
theorem decodeFrom_named [CharacterNames] (cs : List Char) :
    decodeFrom .named (narrowed cs) =
      match nameAt cs with
      | .ok (e, n) => (e.decoded ++ ·) <$> decodeFrom .plain (narrowed (('N' :: cs).drop n))
      | .error fault => .error fault := by
  cases cs with
  | nil => rfl
  | cons c cs =>
      by_cases hbrace : c = '\x7b'
      · subst hbrace
        have hopen : narrowed ('\x7b' :: cs) = '\x7b' :: narrowed cs := rfl
        rw [hopen, decodeFrom, if_pos rfl]
        by_cases hclosed : '\x7d' ∈ cs
        -- The name ends at the first closing brace, and wide characters are spelled without braces.
        · obtain ⟨name, rest, rfl, hname⟩ := List.eq_append_cons_of_mem hclosed
          have hnarrowed : '\x7d' ∉ narrowed name := mt brace_mem_narrowed.mp hname
          have hrest : narrowed (name ++ '\x7d' :: rest) =
              narrowed name ++ '\x7d' :: narrowed rest := by
            rw [narrowed_append]
            rfl
          rw [hrest, decodeFrom_name [] hnarrowed, List.reverse_nil, List.nil_append,
            named_narrowed, nameAt_of_closed hname]
          cases named name with
          | error fault => rfl
          | ok d => simp [Functor.map, Except.map, Element.decoded]
        · rw [decodeFrom_name_of_open [] (mt brace_mem_narrowed.mp hclosed)]
          simp [nameAt, hclosed]
      · have hname : nameAt (c :: cs) = .error .malformedName := by simp [nameAt, hbrace]
        rw [hname]
        by_cases hwide : c.toNat ≤ 0xFF
        · simp [narrowed_cons_of_narrow hwide, decodeFrom, hbrace]
        · obtain ⟨letters, hspelled, -⟩ := codeEscape_of_wide hwide
          simp [narrowed_cons_of_wide hwide, hspelled, decodeFrom]

/-- After a backslash, decoding makes of the next element what it makes of it by itself. -/
theorem decodeFrom_backslash [CharacterNames] (cs : List Char) :
    decodeFrom .backslash (narrowed cs) =
      match escapeAt cs with
      | .ok (e, n) => (e.decoded ++ ·) <$> decodeFrom .plain (narrowed (cs.drop n))
      | .error fault => .error fault := by
  cases cs with
  | nil => rfl
  | cons c cs =>
      by_cases hwide : c.toNat ≤ 0xFF
      · rw [narrowed_cons_of_narrow hwide]
        cases hsingle : single? c with
        | some d => simp [decodeFrom, escapeAt, hsingle, Element.decoded]
        | none =>
            cases hoctal : octal? c with
            | some d =>
                obtain ⟨p, hp⟩ := codePoint?_octalRow (c :: cs)
                have hrow : octalRow 3 (c :: cs) = d :: octalRow 2 cs := by
                  simp [octalRow, hoctal]
                rw [hrow] at hp
                have hvalue : codePoint? (valueFrom 8 d (octalRow 2 cs)) = some p := by
                  simpa [valueFrom] using hp
                simp [decodeFrom, escapeAt, escapeOf, hsingle, hoctal, hrow, hp, Element.decoded,
                  decodeFrom_octalRow 1 d cs, hvalue]
            | none =>
                cases hform : HexForm.ofLetter? c with
                | some form =>
                    obtain ⟨w, hwidth⟩ : ∃ w, form.width = w + 1 := by
                      cases form <;> exact ⟨_, rfl⟩
                    -- The lemma on digits wants one to come, and no form is without digits.
                    have hdecoded := decodeFrom_hexRow form w 0 cs
                    cases hrow : hexRow (w + 1) cs with
                    | none =>
                        simpa [decodeFrom, escapeAt, hsingle, hoctal, hform, hwidth, hrow]
                          using hdecoded
                    | some digits =>
                        cases hpoint : codePoint? (valueFrom 16 0 digits) <;>
                          simpa [decodeFrom, escapeAt, escapeOf, hsingle, hoctal, hform, hwidth,
                            hrow, hpoint, Element.decoded] using hdecoded
                | none =>
                    by_cases hname : c = 'N'
                    · subst hname
                      simp [decodeFrom, escapeAt, hsingle, hoctal, hform, decodeFrom_named]
                    · simp [decodeFrom, escapeAt, hsingle, hoctal, hform, hname, hwide,
                        Element.decoded]
      -- The backslash takes the one that spells the wide character; the letters behind are then
      -- plain.
      · obtain ⟨letters, hspelled, hletters⟩ := codeEscape_of_wide hwide
        have hplain : ∀ d ∈ letters, d ≠ '\\' := by
          rintro d hd rfl
          exact absurd (hletters _ hd) (by decide)
        rw [narrowed_cons_of_wide hwide, escapeAt_of_wide hwide, hspelled]
        have hslash : single? '\\' = some '\\' := rfl
        simp [decodeFrom, hslash, decodeFrom_letters hplain, Element.decoded, hwide, hspelled]

/-- Decoding makes of a text what it makes of its elements, one after another. -/
theorem decode_eq [CharacterNames] (cs : List Char) :
    decode cs = (·.flatMap Element.decoded) <$> elements cs := by
  unfold decode
  fun_induction elements cs with
  | case1 => rfl
  | case2 cs e n hescape ih =>
      have hslash : narrowed ('\\' :: cs) = '\\' :: narrowed cs := rfl
      rw [hslash, decodeFrom, if_pos rfl, decodeFrom_backslash, hescape]
      simp [ih]
  | case3 cs fault hescape =>
      have hslash : narrowed ('\\' :: cs) = '\\' :: narrowed cs := rfl
      rw [hslash, decodeFrom, if_pos rfl, decodeFrom_backslash, hescape]
      rfl
  | case4 c cs hslash ih =>
      by_cases hwide : c.toNat ≤ 0xFF
      · simp [narrowed_cons_of_narrow hwide, decodeFrom, hslash, ih, Element.decoded]
      · simp [narrowed_cons_of_wide hwide, decodeFrom_codeEscape, ih, Element.decoded]

/-! ## Backslashes before wide characters -/

/-- An element that keeps no character above `U+00FF` is decoded to its own text. -/
theorem Element.decoded_eq_text {e : Element} (h : ∀ c, e = .kept c → c.toNat ≤ 0xFF) :
    e.decoded = e.text := by
  cases e with
  | plain | escape => rfl
  | kept c => exact if_pos (h c rfl)

/-- The spelling of a wide character is longer than the backslash and the character. -/
theorem Element.length_text_lt (h : ¬ c.toNat ≤ 0xFF) :
    (Element.kept c).text.length < (Element.kept c).decoded.length := by
  rw [Element.decoded, if_neg h, List.length_map, Quoted.codeEscape, if_neg h]
  split <;> simp [Element.text]

/-- No element is decoded to less than its own text. -/
theorem Element.length_text_le (e : Element) : e.text.length ≤ e.decoded.length := by
  by_cases h : ∀ c, e = .kept c → c.toNat ≤ 0xFF
  · rw [decoded_eq_text h]
  · push Not at h
    obtain ⟨c, rfl, hwide⟩ := h
    exact (length_text_lt (Nat.not_le.mpr hwide)).le

/-- No elements are decoded to less than their own texts. -/
theorem length_flatMap_text_le (es : List Element) :
    (es.flatMap Element.text).length ≤ (es.flatMap Element.decoded).length := by
  induction es with
  | nil => exact Nat.le_refl _
  | cons e es ih => simpa using Nat.add_le_add e.length_text_le ih

/-- Elements are decoded to what they stand for if no backslash is kept before a wide character, and
to a longer text otherwise. -/
theorem flatMap_decoded_eq_iff (es : List Element) :
    es.flatMap Element.decoded = es.flatMap Element.text ↔
      ∀ c, .kept c ∈ es → c.toNat ≤ 0xFF := by
  constructor
  · intro heq c hmem
    by_contra hwide
    obtain ⟨before, after, rfl⟩ := List.append_of_mem hmem
    have hlength := congrArg List.length heq
    have hbefore := length_flatMap_text_le before
    have hafter := length_flatMap_text_le after
    have hkept := Element.length_text_lt hwide
    simp only [List.flatMap_append, List.flatMap_cons, List.length_append] at hlength
    omega
  · intro h
    refine List.flatMap_congr fun e he => Element.decoded_eq_text ?_
    rintro c rfl
    exact h c he

/-- A text is decoded to what it stands for, or is as faulty, exactly unless a backslash that
escapes nothing stands before a wide character. -/
theorem decode_eq_reference_iff [CharacterNames] (cs : List Char) :
    decode cs = reference cs ↔
      ∀ es, elements cs = .ok es → ∀ c, .kept c ∈ es → c.toNat ≤ 0xFF := by
  rw [decode_eq, reference]
  cases helements : elements cs with
  | error fault => simp [Functor.map, Except.map]
  | ok es => simpa [Functor.map, Except.map] using flatMap_decoded_eq_iff es

end Text.Escape

end AnonymousObjects
