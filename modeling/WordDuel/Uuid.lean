import WordDuel.Text.Hex
/-!
# WordDuel.Uuid

**128-bit identifiers** of rooms and players, ordered by value, with their
written forms: always written in lower-case hyphenated form, and read in any of
four spellings and in any case.
-/

namespace WordDuel

/-- A 128-bit identifier. -/
structure Uuid where
  /-- The value, most significant digit first in the written form. -/
  bits : BitVec 128
  deriving DecidableEq

/-- Rooms are named by identifiers. -/
abbrev RoomId := Uuid

/-- Players are named by identifiers. -/
abbrev PlayerId := Uuid

namespace Uuid

instance : Inhabited Uuid := ⟨⟨0⟩⟩

/-! ### Order -/

instance : Ord Uuid := ⟨fun a b => compare a.bits b.bits⟩

theorem compare_eq (a b : Uuid) : compare a b = compare a.bits b.bits := rfl

instance : Std.TransOrd Uuid where
  eq_swap {a b} := by simpa only [compare_eq] using Std.OrientedCmp.eq_swap
  isLE_trans {a b c} := by simpa only [compare_eq] using Std.TransCmp.isLE_trans

instance : Std.LawfulEqOrd Uuid where
  compare_self {a} := by rw [compare_eq]; exact Std.ReflCmp.compare_self
  eq_of_compare {a b} h := by
    rw [compare_eq] at h
    cases a; cases b
    exact congrArg Uuid.mk (Std.LawfulEqCmp.eq_of_compare h)

/-! ### Writing and reading -/

/-- The hyphenated form: groups of 8, 4, 4, 4 and 12 digits. -/
def toChars (u : Uuid) : List Char :=
  let ds := Hex.digits 32 u.bits.toNat
  ds.take 8 ++ '-' :: (ds.drop 8).take 4 ++ '-' :: (ds.drop 12).take 4 ++
    '-' :: (ds.drop 16).take 4 ++ '-' :: ds.drop 20

/-- The written form of an identifier. -/
def toText (u : Uuid) : String := String.ofList u.toChars

/-- Read exactly 32 hexadecimal digits. -/
def ofDigits? (ds : List Char) : Option Uuid :=
  if ds.length = 32 then (Hex.number? ds).map fun n => ⟨BitVec.ofNat 128 n⟩ else none

/-- Read the hyphenated form. -/
def ofHyphenated? (cs : List Char) : Option Uuid :=
  if cs.length = 36 ∧ cs[8]? = some '-' ∧ cs[13]? = some '-' ∧ cs[18]? = some '-'
      ∧ cs[23]? = some '-' then
    ofDigits? (cs.take 8 ++ (cs.drop 9).take 4 ++ (cs.drop 14).take 4 ++
      (cs.drop 19).take 4 ++ cs.drop 24)
  else none

/-- What stands before the hyphenated form in a uniform resource name, in any case. -/
def urnPrefix : List Char := "urn:uuid:".toList

/-- Read an identifier: hyphenated, 32 plain digits, hyphenated between braces, or
hyphenated after `urn:uuid:`. The four forms differ in length. -/
def ofChars? (cs : List Char) : Option Uuid :=
  if cs.length = 32 then ofDigits? cs
  else if cs.length = 36 then ofHyphenated? cs
  else if cs.length = 38 then
    -- As long as the hyphenated form with a brace on either side.
    if cs.head? = some '{' ∧ cs.getLast? = some '}' then ofHyphenated? (cs.drop 1).dropLast
    else none
  else if (cs.take 9).map Char.toLower = urnPrefix then ofHyphenated? (cs.drop 9)
  else none

/-- Read an identifier from a text. -/
def ofText? (s : String) : Option Uuid := ofChars? s.toList

/-- The identifier whose value is written by 16 bytes, the most significant first. -/
def ofBytes? (bytes : List UInt8) : Option Uuid :=
  if bytes.length = 16 then
    some ⟨BitVec.ofNat 128 (bytes.foldl (fun n b => n * 256 + b.toNat) 0)⟩
  else none

end Uuid

end WordDuel
