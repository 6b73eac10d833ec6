/-!
# WordDuel.Text.Hex

**Hexadecimal digits**: written in lower case with a fixed number of places, read
in either case.
-/

namespace WordDuel.Hex

/-- The last `width` hexadecimal digits of a number, in lower case. -/
def digits : (width : Nat) → Nat → List Char
  | 0, _ => []
  | width + 1, n => digits width (n / 16) ++ [Nat.digitChar (n % 16)]

/-- The value of a hexadecimal digit of either case. -/
def value? (c : Char) : Option Nat :=
  if c.isDigit then some (c.toNat - 48)
  else if 'a' ≤ c ∧ c ≤ 'f' then some (c.toNat - 87)
  else if 'A' ≤ c ∧ c ≤ 'F' then some (c.toNat - 55)
  else none

/-- The number that a row of hexadecimal digits denotes. -/
def number? (ds : List Char) : Option Nat :=
  ds.foldlM (fun n c => (value? c).map (n * 16 + ·)) 0

@[simp] theorem length_digits (width n : Nat) : (digits width n).length = width := by
  induction width generalizing n with
  | zero => rfl
  | succ width ih => simp [digits, ih]

end WordDuel.Hex
