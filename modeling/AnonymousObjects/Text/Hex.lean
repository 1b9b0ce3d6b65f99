/-!
# Hexadecimal digits

Code points and bytes are written in escapes and messages as lower-case hexadecimal digits of a
fixed width, and read back from digits of either case. `value?_digit` says that every digit
written is read as its value.
-/

namespace AnonymousObjects.Text.Hex

/-- The lower-case hexadecimal digit of a number below 16. -/
def digit (n : Nat) : Char :=
  if n < 10 then Char.ofNat (48 + n) else Char.ofNat (87 + n)

/-- The last `width` hexadecimal digits of a number, the most significant first. -/
def digits : (width : Nat) → Nat → List Char
  | 0, _ => []
  | width + 1, n => digits width (n / 16) ++ [digit (n % 16)]

/-- The value of a hexadecimal digit of either case. -/
def value? (c : Char) : Option Nat :=
  if '0' ≤ c ∧ c ≤ '9' then some (c.toNat - 48)
  else if 'a' ≤ c ∧ c ≤ 'f' then some (c.toNat - 87)
  else if 'A' ≤ c ∧ c ≤ 'F' then some (c.toNat - 55)
  else none

/-- There are as many digits as the width says. -/
@[simp] theorem digits_length (width n : Nat) : (digits width n).length = width := by
  induction width generalizing n with
  | zero => rfl
  | succ width ih => simp [digits, ih]

/-- A written digit is read as its value. -/
theorem value?_digit {n : Nat} (h : n < 16) : value? (digit n) = some n := by
  have all : ∀ m : Fin 16, value? (digit m.val) = some m.val := by decide
  exact all ⟨n, h⟩

end AnonymousObjects.Text.Hex
