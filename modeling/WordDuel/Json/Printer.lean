import WordDuel.Json.Basic
import WordDuel.Text.Decimal
/-!
# WordDuel.Json.Printer

**Writing JSON** without spaces. Within a string only the quote, the backslash
and the control characters below U+0020 are escaped, with the short escapes
where there is one and four lower-case hexadecimal digits otherwise.
-/

namespace WordDuel.Json

/-- The escape of a character inside a string, or the character itself. -/
def escape (c : Char) : List Char :=
  if c = '"' then ['\\', '"']
  else if c = '\\' then ['\\', '\\']
  else if c.toNat = 8 then ['\\', 'b']
  else if c.toNat = 9 then ['\\', 't']
  else if c.toNat = 10 then ['\\', 'n']
  else if c.toNat = 12 then ['\\', 'f']
  else if c.toNat = 13 then ['\\', 'r']
  else if c.toNat < 32 then
    ['\\', 'u', '0', '0', Nat.digitChar (c.toNat / 16), Nat.digitChar (c.toNat % 16)]
  else [c]

/-- A string between its quotes. A string without a text is written as half of a
surrogate pair, which has none either. -/
def printText : Option String → List Char
  | some s => '"' :: (s.toList.flatMap escape ++ ['"'])
  | none => ['"', '\\', 'u', 'd', '8', '0', '0', '"']

mutual

/-- A value as JSON text. -/
def print : Json → List Char
  | .null => ['n', 'u', 'l', 'l']
  | .bool true => ['t', 'r', 'u', 'e']
  | .bool false => ['f', 'a', 'l', 's', 'e']
  | .int n => (Decimal.ofInt n).toList
  | .real literal => literal.toList
  | .string t => printText t
  | .array [] => ['[', ']']
  | .array (v :: vs) => '[' :: print v ++ printItems vs
  | .object [] => ['\x7b', '\x7d']
  | .object ((k, v) :: ms) => '\x7b' :: printText k ++ ':' :: print v ++ printMembers ms

/-- The rest of an array after an item. -/
def printItems : List Json → List Char
  | [] => [']']
  | v :: vs => ',' :: print v ++ printItems vs

/-- The rest of an object after a member. -/
def printMembers : List (Option String × Json) → List Char
  | [] => ['\x7d']
  | (k, v) :: ms => ',' :: printText k ++ ':' :: print v ++ printMembers ms

end

/-- A value as JSON text. -/
def render (v : Json) : String := String.ofList v.print

end WordDuel.Json
