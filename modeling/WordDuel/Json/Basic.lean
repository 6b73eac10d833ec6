/-!
# WordDuel.Json.Basic

**JSON values** as a document spells them: members of an object keep their order
and may repeat, and numbers are split into integer literals and all others,
because nothing in this library measures in fractions.
-/

namespace WordDuel

/-- A JSON value. A text is `none` where an escape leaves half of a surrogate
pair alone, so that the string denotes no Unicode text. -/
inductive Json
  /-- The literal `null`. -/
  | null
  /-- A truth value. -/
  | bool (b : Bool)
  /-- An integer literal, `-0` excepted. -/
  | int (n : Int)
  /-- Any other number: with a fraction, with an exponent, or `-0`. -/
  | real (literal : String)
  | string (text : Option String)
  | array (items : List Json)
  /-- An object, its members in document order. -/
  | object (members : List (Option String × Json))

namespace Json

instance : Inhabited Json := ⟨.null⟩

/-- A string that holds a text. -/
def text (s : String) : Json := .string (some s)

/-- An object whose keys hold texts. -/
def ofMembers (members : List (String × Json)) : Json :=
  .object (members.map fun m => (some m.1, m.2))

/-- A natural number. -/
def nat (n : Nat) : Json := .int n

/-- The value, or `null` if there is none. -/
def orNull (toJson : α → Json) : Option α → Json
  | none => .null
  | some a => toJson a

/-- The first member of an object under a key. -/
def get? (key : String) : Json → Option Json
  | .object members => (members.find? fun m => m.1 == some key).map Prod.snd
  | _ => none

end Json

end WordDuel
