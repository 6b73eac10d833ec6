import WordDuel.Json.Printer
import WordDuel.Json.Reader
import WordDuel.Uuid
/-!
# WordDuel.Wire.Codec

**Values in JSON**: a codec writes a value as JSON and reads it back, and this
module has the rules that all codecs share.

* A record is an object with its fields in any order. Other members are ignored,
  whatever they hold; a field that comes twice is an error. A record may also be
  an array of exactly its fields in order.
* An optional field may be missing or `null`; any other must be there.
* A choice is the name of the alternative, or an object with that name as its
  only key and the alternative's content as its value.
* Numbers are integer literals within the bounds of their type.
-/

namespace WordDuel

/-- How the values of a type are written in JSON and read back. -/
class Codec (α : Type) where
  /-- Write a value. -/
  encode : α → Json
  /-- Read a value. -/
  decode? : Json → Option α

export Codec (encode decode?)

namespace Json

/-! ### Records -/

/-- The fields of a record, in the order of their names; `none` where one is
missing. -/
def fields? (names : List String) : Json → Option (List (Option Json))
  | .array items => if items.length = names.length then some (items.map some) else none
  | .object members =>
    let known := members.filter fun m => names.any fun n => m.1 == some n
    if members.all (fun m => m.1.isSome) && (known.map Prod.fst).Nodup then
      some (names.map fun n => (members.find? fun m => m.1 == some n).map Prod.snd)
    else none
  | _ => none

/-- Read a field that must be there. -/
def required? [Codec α] (field : Option Json) : Option α := field.bind decode?

/-- Read a field that may be missing or `null`. -/
def optional? [Codec α] : Option Json → Option (Option α)
  | none => some none
  | some .null => some none
  | some v => (decode? v).map some

/-! ### Choices -/

/-- The name of an alternative and its content, if it has any. -/
def choice? : Json → Option (String × Option Json)
  | .string (some name) => some (name, none)
  | .object [(some name, content)] => some (name, some content)
  | _ => none

/-- Whether the content of an alternative is nothing. -/
def isNothing : Option Json → Bool
  | none => true
  | some .null => true
  | _ => false

/-- Read one of some alternatives without content by its name. -/
def bare? (nameOf : α → String) (alternatives : List α) (v : Json) : Option α := do
  let (name, content) ← choice? v
  if isNothing content then alternatives.find? fun a => nameOf a == name else none

/-- Read a number with its bounds. -/
def intWithin? (lo hi : Int) : Json → Option Int
  | .int n => if lo ≤ n ∧ n ≤ hi then some n else none
  | _ => none

end Json

/-! ### Codecs of common types -/

/-- Natural numbers are written as they are and read below 2³². -/
instance : Codec Nat where
  encode n := .int n
  decode? v := (v.intWithin? 0 4294967295).map Int.toNat

/-- Integers are written as they are and read from -2³¹ to below 2³¹. -/
instance : Codec Int where
  encode n := .int n
  decode? v := v.intWithin? (-2147483648) 2147483647

instance : Codec String where
  encode s := .text s
  decode?
    | .string (some s) => some s
    | _ => none

/-- A character is a string of exactly that character. -/
instance : Codec Char where
  encode c := .text (String.singleton c)
  decode?
    | .string (some s) =>
      match s.toList with
      | [c] => some c
      | _ => none
    | _ => none

instance : Codec Uuid where
  encode u := .text u.toText
  decode?
    | .string (some s) => Uuid.ofText? s
    | _ => none

instance [Codec α] : Codec (List α) where
  encode vs := .array (vs.map encode)
  decode?
    | .array items => items.mapM decode?
    | _ => none

/-- A value that may be left out is written as `null` then. -/
instance [Codec α] : Codec (Option α) where
  encode v := Json.orNull encode v
  decode?
    | .null => some none
    | v => (decode? v).map some

/-- Read a value from JSON text. -/
def decodeText? [Codec α] (s : String) : Option α := (Json.read? s).bind decode?

/-- Write a value as JSON text. -/
def encodeText [Codec α] (v : α) : String := (encode v).render

end WordDuel
