/-!
# WordDuel.Number.Binary

**Binary numbers of limited precision**: a whole number times a power of two.
Rounding keeps so many binary digits and goes to the nearest number that has no more,
and to the even one of two that are equally near.
-/

namespace WordDuel

/-- The number `significand * 2 ^ exponent`. -/
structure Binary where
  /-- The digits. -/
  significand : Nat
  /-- The place of the last digit. -/
  exponent : Int
  deriving DecidableEq

namespace Binary

/-- How many binary digits a number has. -/
def width (n : Nat) : Nat := if n = 0 then 0 else n.log2 + 1

/-- The whole number nearest to a quotient, and the even one of two. -/
def nearest (num den : Nat) : Nat :=
  let q := num / den
  let twice := 2 * (num % den)
  if twice < den ∨ (twice = den ∧ q % 2 = 0) then q else q + 1

/-- Round off the last digits. -/
def roundOff (b : Binary) (digits : Nat) : Binary :=
  ⟨nearest b.significand (Nat.pow 2 digits), b.exponent + digits⟩

/-- Round to so many digits. -/
def round (bits : Nat) (b : Binary) : Binary := b.roundOff (width b.significand - bits)

/-- A product, rounded to so many digits. -/
def mul (bits : Nat) (a b : Binary) : Binary :=
  round bits ⟨a.significand * b.significand, a.exponent + b.exponent⟩

/-- A whole number, rounded to so many digits. -/
def ofNat (bits n : Nat) : Binary := round bits ⟨n, 0⟩

/-- One divided by a whole number, rounded to so many digits. -/
def ofReciprocal (bits n : Nat) : Binary :=
  let shift := bits + width n - 1
  ⟨nearest (Nat.pow 2 shift) n, -shift⟩

/-- The whole number that a number is, if it is one. -/
def whole? (b : Binary) : Option Nat :=
  let divisor := Nat.pow 2 (-b.exponent).toNat
  if b.significand % divisor = 0 then
    some (b.significand / divisor * Nat.pow 2 b.exponent.toNat)
  else none

end Binary

end WordDuel
