import WordDuel.Number.Double
/-!
# WordDuel.Number.Numeral

**Numerals in every spelling**: white space around them, a sign, a fraction, an
exponent. Their digits are kept as far as they fit in 64 bits. A numeral of digits alone
denotes its number exactly; any other is made up from its digits and powers of ten in 64
binary digits, step by step, and then kept in double precision.
-/

namespace WordDuel

/-- What a numeral consists of: the number `digits * 10 ^ exponent` with a sign. -/
structure Numeral where
  /-- Whether there is a minus sign. -/
  negative : Bool
  /-- The digits that are kept. -/
  digits : Nat
  /-- The power of ten. -/
  exponent : Int
  /-- Whether there is neither a point nor an exponent. -/
  plain : Bool
  deriving DecidableEq

namespace Numeral

/-! ### Reading -/

/-- The ASCII white space: the space, and tab to carriage return. -/
def isSpace (c : Char) : Bool := c = ' ' || ('\t' ≤ c && c ≤ '\r')

/-- A text without the white space around it. -/
def trim (cs : List Char) : List Char :=
  ((cs.dropWhile isSpace).reverse.dropWhile isSpace).reverse

/-- Take a sign off; whether it was a minus sign. -/
def takeSign : List Char → Bool × List Char
  | '-' :: rest => (true, rest)
  | '+' :: rest => (false, rest)
  | cs => (false, cs)

/-- The number with a sign. -/
def signed (negative : Bool) (n : Nat) : Int := if negative then -n else n

/-- From this number on no more digits are kept, since they might not fit in 64 bits. -/
def digitLimit : Nat := 1844674407370955160

/-- Keep as many digits as fit after others; the number, and how many were kept. -/
def keepDigits (start : Nat) (ds : List Char) : Nat × Nat :=
  ds.foldl
    (fun (n, kept) c =>
      if n < digitLimit then (n * 10 + Decimal.digitValue c, kept + 1) else (n, kept))
    (start, 0)

/-- The digits after a point, and what follows them, if there is a point. -/
def takeFraction? : List Char → Option (List Char × List Char)
  | '.' :: rest => some (rest.takeWhile Char.isDigit, rest.dropWhile Char.isDigit)
  | _ => none

/-- The exponent that a text consists of. Beyond 10000 all are the same. -/
def exponent? : List Char → Option Int
  | [] => none
  | e :: rest =>
    let (negative, ds) := takeSign rest
    if (e = 'e' ∨ e = 'E') ∧ ds ≠ [] ∧ ds.all Char.isDigit then
      some (signed negative (min 10000 (Decimal.value ds)))
    else none

/-- Read a numeral: at least one digit, before the point or after it. -/
def read? (s : String) : Option Numeral :=
  let (negative, cs) := takeSign (trim s.toList)
  let before := cs.takeWhile Char.isDigit
  let fraction := takeFraction? (cs.dropWhile Char.isDigit)
  let (after, rest) := fraction.getD ([], cs.dropWhile Char.isDigit)
  let (n, kept) := keepDigits 0 before
  let (digits, keptAfter) := keepDigits n after
  if before = [] ∧ after = [] then none
  else
    -- A digit before the point that is not kept counts ten times the others.
    let place : Int := before.length - kept - keptAfter
    if rest = [] then some ⟨negative, digits, place, fraction.isNone⟩
    else (exponent? rest).map fun e => ⟨negative, digits, e + place, false⟩

/-! ### The number -/

/-- Move powers of ten into the digits, while they fit in 64 bits; what is left. -/
def grow : (power : Nat) → (digits : Nat) → Nat × Nat
  | 0, n => (n, 0)
  | power + 1, n => if n ≤ digitLimit then grow power (n * 10) else (n, power + 1)

/-- Move powers of ten out of the digits, while they end in zero; what is left. -/
def shrink : (power : Nat) → (digits : Nat) → Nat × Nat
  | 0, n => (n, 0)
  | power + 1, n => if n % 10 = 0 then shrink power (n / 10) else (n, power + 1)

/-- Multiply by a power of a base, given the hundredth, tenth and first power of it. Each
step is rounded to 64 binary digits. -/
def scale (hundredth tenth first : Binary) (power : Nat) (b : Binary) : Binary :=
  let times := fun (factor : Binary) (count : Nat) (b : Binary) =>
    Nat.repeat (fun b => b.mul 64 factor) count b
  times first (power % 10) (times tenth (power % 100 / 10) (times hundredth (power / 100) b))

/-- The number without its sign. -/
def magnitude (x : Numeral) : Binary :=
  if x.digits = 0 then ⟨0, 0⟩
  else if 0 ≤ x.exponent then
    let (n, power) := grow x.exponent.toNat x.digits
    scale (.ofNat 64 (Nat.pow 10 100)) (.ofNat 64 (Nat.pow 10 10)) (.ofNat 64 10) power ⟨n, 0⟩
  else
    let (n, power) := shrink (-x.exponent).toNat x.digits
    scale (.ofReciprocal 64 (Nat.pow 10 100)) (.ofReciprocal 64 (Nat.pow 10 10))
      (.ofReciprocal 64 10) power ⟨n, 0⟩

/-- The number in double precision. -/
def toDouble (x : Numeral) : Double := .ofBinary x.negative x.magnitude

/-- The whole number that a numeral of digits alone denotes, if it has 64 bits. -/
def digitsAlone? (x : Numeral) : Option Int :=
  let n := signed x.negative x.digits
  if x.plain ∧ x.exponent = 0 ∧ -9223372036854775808 ≤ n ∧ n ≤ 9223372036854775807 then some n
  else none

end Numeral

end WordDuel
