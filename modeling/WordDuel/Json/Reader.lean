import WordDuel.Json.Basic
import WordDuel.Text.Decimal
import WordDuel.Text.Hex
/-!
# WordDuel.Json.Reader

**Reading JSON** strictly: one value with nothing but white space around it, no
leading zeros, no unescaped control characters. A string whose escapes leave
half of a surrogate pair alone is accepted and holds no text.

Each reader takes the characters still to be read and gives back what it read
with the characters that follow.
-/

namespace WordDuel.Json

/-- Drop the white space that may stand between tokens. -/
def skipBlank (cs : List Char) : List Char :=
  cs.dropWhile fun c => c = ' ' || c = '\n' || c = '\r' || c = '\t'

/-! ### Strings -/

/-- What a string is made of: characters written as they are, and the 16-bit
units of numeric escapes. -/
inductive Piece
  /-- A character, or one of the short escapes. -/
  | char (c : Char)
  /-- A numeric escape. -/
  | unit (n : Nat)

/-- The value of four hexadecimal digits. -/
def hexUnit? (a b c d : Char) : Option Nat := Hex.number? [a, b, c, d]

/-- The character that a short escape stands for. -/
def shortEscape? : Char → Option Char
  | '"' => some '"'
  | '\\' => some '\\'
  | '/' => some '/'
  | 'b' => some '\x08'
  | 'f' => some '\x0c'
  | 'n' => some '\n'
  | 'r' => some '\r'
  | 't' => some '\t'
  | _ => none

/-- Put a piece in front of what the rest of a string gave. -/
def consPiece (p : Piece) (r : Option (List Piece × List Char)) : Option (List Piece × List Char) :=
  r.map fun (ps, rest) => (p :: ps, rest)

/-- Read a string up to and with its closing quote. -/
def readPieces : List Char → Option (List Piece × List Char)
  | [] => none
  | '"' :: rest => some ([], rest)
  | '\\' :: 'u' :: a :: b :: c :: d :: rest =>
    match hexUnit? a b c d with
    | some n => consPiece (.unit n) (readPieces rest)
    | none => none
  | '\\' :: e :: rest =>
    match shortEscape? e with
    | some c => consPiece (.char c) (readPieces rest)
    | none => none
  | ['\\'] => none
  | c :: rest => if c.toNat < 32 then none else consPiece (.char c) (readPieces rest)

/-- Whether a unit is the first half of a surrogate pair. -/
def isLeading (n : Nat) : Bool := 0xD800 ≤ n && n < 0xDC00

/-- Whether a unit is the second half of a surrogate pair. -/
def isTrailing (n : Nat) : Bool := 0xDC00 ≤ n && n < 0xE000

/-- The text that pieces spell, if no half of a surrogate pair stands alone. -/
def joinPieces : List Piece → Option (List Char)
  | [] => some []
  | .char c :: ps => (joinPieces ps).map (c :: ·)
  | .unit hi :: .unit lo :: ps =>
    if isLeading hi then
      if isTrailing lo then
        (joinPieces ps).map (Char.ofNat (0x10000 + (hi - 0xD800) * 0x400 + (lo - 0xDC00)) :: ·)
      else none
    else if isTrailing hi then none
    else (joinPieces (.unit lo :: ps)).map (Char.ofNat hi :: ·)
  | .unit n :: ps =>
    if isLeading n || isTrailing n then none else (joinPieces ps).map (Char.ofNat n :: ·)

/-- Read a string after its opening quote. -/
def readText (cs : List Char) : Option (Option String × List Char) :=
  (readPieces cs).map fun (ps, rest) => ((joinPieces ps).map String.ofList, rest)

/-! ### Numbers -/

/-- Read a fraction, if one follows: a point and at least one digit. -/
def readFraction : List Char → Option (List Char × List Char)
  | '.' :: rest =>
    match rest.takeWhile Char.isDigit with
    | [] => none
    | ds => some ('.' :: ds, rest.dropWhile Char.isDigit)
  | cs => some ([], cs)

/-- Read the digits of an exponent after what stands before them. -/
def readExponentDigits (before : List Char) (cs : List Char) : Option (List Char × List Char) :=
  match cs.takeWhile Char.isDigit with
  | [] => none
  | ds => some (before ++ ds, cs.dropWhile Char.isDigit)

/-- Read an exponent, if one follows: `e` or `E`, a sign if any, and at least one digit. -/
def readExponent : List Char → Option (List Char × List Char)
  | [] => some ([], [])
  | e :: rest =>
    if e = 'e' ∨ e = 'E' then
      match rest with
      | '+' :: r => readExponentDigits [e, '+'] r
      | '-' :: r => readExponentDigits [e, '-'] r
      | r => readExponentDigits [e] r
    else some ([], e :: rest)

/-- The value of a number, given its sign, its digits before the point and all
that follows them. -/
def ofLiteral (negative : Bool) (ds tail : List Char) : Json :=
  let n := Decimal.value ds
  if tail = [] then
    if negative then
      if n = 0 then .real "-0" else .int (-(n : Int))
    else .int n
  else .real (String.ofList ((if negative then ['-'] else []) ++ ds ++ tail))

/-- Read a number after its sign. -/
def readUnsigned (negative : Bool) (cs : List Char) : Option (Json × List Char) := do
  let ds := cs.takeWhile Char.isDigit
  -- A zero that other digits follow would be a leading zero.
  if ds = [] ∨ (ds.head? = some '0' ∧ ds ≠ ['0']) then none
  else
    let (fraction, rest) ← readFraction (cs.dropWhile Char.isDigit)
    let (exponent, rest) ← readExponent rest
    return (ofLiteral negative ds (fraction ++ exponent), rest)

/-- Read a number. -/
def readNumber : List Char → Option (Json × List Char)
  | '-' :: rest => readUnsigned true rest
  | cs => readUnsigned false cs

/-! ### Values -/

mutual

/-- Read a value; the first argument bounds the number of nested calls. -/
def readValue : Nat → List Char → Option (Json × List Char)
  | 0, _ => none
  | n + 1, cs =>
    match skipBlank cs with
    | 'n' :: 'u' :: 'l' :: 'l' :: rest => some (.null, rest)
    | 't' :: 'r' :: 'u' :: 'e' :: rest => some (.bool true, rest)
    | 'f' :: 'a' :: 'l' :: 's' :: 'e' :: rest => some (.bool false, rest)
    | '"' :: rest => (readText rest).map fun (t, rest) => (.string t, rest)
    | '[' :: rest =>
      match skipBlank rest with
      | ']' :: rest => some (.array [], rest)
      | rest => (readItems n rest).map fun (vs, rest) => (.array vs, rest)
    | '\x7b' :: rest =>
      match skipBlank rest with
      | '\x7d' :: rest => some (.object [], rest)
      | rest => (readMembers n rest).map fun (ms, rest) => (.object ms, rest)
    | rest => readNumber rest

/-- Read the items of an array and its closing bracket. -/
def readItems : Nat → List Char → Option (List Json × List Char)
  | 0, _ => none
  | n + 1, cs => do
    let (v, rest) ← readValue n cs
    match skipBlank rest with
    | ',' :: rest => (readItems n rest).map fun (vs, rest) => (v :: vs, rest)
    | ']' :: rest => some ([v], rest)
    | _ => none

/-- Read the members of an object and its closing brace. -/
def readMembers : Nat → List Char → Option (List (Option String × Json) × List Char)
  | 0, _ => none
  | n + 1, cs =>
    match skipBlank cs with
    | '"' :: rest => do
      let (k, rest) ← readText rest
      match skipBlank rest with
      | ':' :: rest =>
        let (v, rest) ← readValue n rest
        match skipBlank rest with
        | ',' :: rest => (readMembers n rest).map fun (ms, rest) => ((k, v) :: ms, rest)
        | '\x7d' :: rest => some ([(k, v)], rest)
        | _ => none
      | _ => none
    | _ => none

end

/-- Read a document: a value and nothing else but white space. Every nested call
but one in two takes a character, so twice the length bounds their number. -/
def readChars? (cs : List Char) : Option Json :=
  match readValue (2 * cs.length + 2) cs with
  | some (v, rest) => if skipBlank rest = [] then some v else none
  | none => none

/-- Read a document. -/
def read? (s : String) : Option Json := readChars? s.toList

end WordDuel.Json
