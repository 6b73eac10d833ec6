import WordDuel.Number.Binary
import WordDuel.Text.Decimal
/-!
# WordDuel.Number.Double

**Real numbers in double precision**: 53 binary digits, none of them below the 1074th
binary place. They are written with 15 decimal digits, and large and small ones with a
power of ten.
-/

namespace WordDuel

/-- A real number in double precision. -/
structure Double where
  /-- Whether the number is below zero. -/
  negative : Bool
  /-- The number without its sign. -/
  magnitude : Binary
  deriving DecidableEq

namespace Double

/-- A number in double precision. -/
def ofBinary (negative : Bool) (b : Binary) : Double :=
  ⟨negative, b.roundOff (max (Binary.width b.significand - 53) (-1074 - b.exponent).toNat)⟩

/-- A whole number in double precision. -/
def ofInt (n : Int) : Double := ofBinary (n < 0) ⟨n.natAbs, 0⟩

/-- The whole number that a number is, if it is one. -/
def whole? (x : Double) : Option Int :=
  x.magnitude.whole?.map fun n => if x.negative then -n else n

/-! ### Writing -/

/-- The digits of a positive fraction to 15 places, the first of them not zero, and the
power of ten that the first of them counts. -/
def decimals (num den : Nat) : Nat × Int :=
  let scaled := fun (place : Int) =>
    let num := num * Nat.pow 10 (14 - place).toNat
    let den := den * Nat.pow 10 (place - 14).toNat
    (2 * num + den) / (2 * den)
  -- By the lengths alone the place of the first digit is known but for one.
  let guess : Int := (Decimal.digits num).length - (Decimal.digits den).length
  let place := if num * Nat.pow 10 (-guess).toNat < den * Nat.pow 10 guess.toNat then guess - 1
    else guess
  let n := scaled place
  if n = Nat.pow 10 15 then (Nat.pow 10 14, place + 1) else (n, place)

/-- Digits without the zeros at their end. -/
def trimZeros (ds : List Char) : List Char := (ds.reverse.dropWhile (· = '0')).reverse

/-- A whole part and a fraction, which has at least one digit. -/
def pointed (before after : List Char) : List Char :=
  before ++ '.' :: (if after = [] then ['0'] else after)

/-- A number without its sign. -/
def magnitudeText (b : Binary) : List Char :=
  if b.significand = 0 then ['0', '.', '0']
  else
    let (n, place) := decimals (b.significand * Nat.pow 2 b.exponent.toNat)
      (Nat.pow 2 (-b.exponent).toNat)
    let ds := Decimal.digits n
    if place < -4 ∨ 14 < place then
      pointed (ds.take 1) (trimZeros (ds.drop 1)) ++
        'e' :: (if place < 0 then '-' else '+') ::
          Decimal.padded (if place.natAbs < 100 then 2 else 3) place.natAbs
    else if place < 0 then
      pointed ['0'] (List.replicate (place.natAbs - 1) '0' ++ trimZeros ds)
    else pointed (ds.take (place.toNat + 1)) (trimZeros (ds.drop (place.toNat + 1)))

/-- A number in decimal. -/
def toText (x : Double) : String :=
  let sign := if x.negative ∧ x.magnitude.significand ≠ 0 then ['-'] else []
  String.ofList (sign ++ magnitudeText x.magnitude)

end Double

end WordDuel
