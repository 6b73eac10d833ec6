/-!
# WordDuel.Text.Decimal

**Decimal numerals**: writing numbers with the fewest digits or with a fixed
number of them, and reading a bounded unsigned numeral with the reason when a
text is none.
-/

namespace WordDuel.Decimal

/-! ### Writing -/

/-- The fewest digits of a number, most significant first. -/
def digits (n : Nat) : List Char := Nat.toDigits 10 n

/-- The last `width` digits of a number, leading zeros included. -/
def padded : (width : Nat) → Nat → List Char
  | 0, _ => []
  | width + 1, n => padded width (n / 10) ++ [Nat.digitChar (n % 10)]

/-- A number in decimal. -/
def ofNat (n : Nat) : String := String.ofList (digits n)

/-- An integer in decimal, with a minus sign if it is negative. -/
def ofInt : Int → String
  | .ofNat n => ofNat n
  | .negSucc n => "-" ++ ofNat (n + 1)

/-! ### Reading -/

/-- The value of a digit. -/
def digitValue (c : Char) : Nat := c.toNat - 48

/-- The number that a row of digits denotes. -/
def value (ds : List Char) : Nat := ds.foldl (fun n c => n * 10 + digitValue c) 0

/-- A text denotes a number if it is a row of digits with this value, of one digit at least and
possibly after a plus sign. Leading zeros do no harm. -/
def Denotes (cs : List Char) (n : Nat) : Prop :=
  ∃ ds : List Char, (cs = ds ∨ cs = '+' :: ds) ∧ ds ≠ [] ∧ (∀ c ∈ ds, c.isDigit) ∧ value ds = n

/-- Why a text is no numeral of a bounded unsigned type. -/
inductive Fault
  /-- There is nothing to read. -/
  | blank
  /-- A character is not a digit, or a sign stands alone. -/
  | invalidDigit
  /-- The number read so far exceeds the bound. -/
  | tooLarge
  deriving DecidableEq, Repr

/-- The wording of a fault. -/
def Fault.message : Fault → String
  | .blank => "cannot parse integer from empty string"
  | .invalidDigit => "invalid digit found in string"
  | .tooLarge => "number too large to fit in target type"

/-- Read one more digit after the number `n`, keeping to `bound`. -/
def push (bound n : Nat) (c : Char) : Except Fault Nat :=
  if c.isDigit then
    let next := n * 10 + digitValue c
    if next ≤ bound then .ok next else .error .tooLarge
  else .error .invalidDigit

/-- Read an unsigned numeral of at most `bound`: an optional plus sign and at
least one digit, leading zeros allowed. The first character that cannot be
taken decides the fault. -/
def readUpTo (bound : Nat) : List Char → Except Fault Nat
  | [] => .error .blank
  | ['+'] => .error .invalidDigit
  | '+' :: ds => ds.foldlM (push bound) 0
  | ds => ds.foldlM (push bound) 0

end WordDuel.Decimal
