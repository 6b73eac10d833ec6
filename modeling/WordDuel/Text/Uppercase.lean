import WordDuel.Text.CaseTable
/-!
# WordDuel.Text.Uppercase

**Upper-casing** letter by letter with the full Unicode mapping, under which one
letter can become two or three (`ß` becomes `SS`), and the ASCII mapping used
where only the letters A to Z have case.
-/

namespace WordDuel.Text

/-- The image of a code point in a run that holds it. -/
def CaseRun.map? (r : CaseRun) (n : Nat) : Option Nat :=
  if r.first ≤ n ∧ n ≤ r.last ∧ (n - r.first) % r.step = 0 then some (r.image + (n - r.first))
  else none

/-- The upper case of one character. -/
def upperChar (c : Char) : List Char :=
  if c.toNat < 0x80 then [c.toUpper]
  else
    match caseExpansions.lookup c.toNat with
    | some us => us.map Char.ofNat
    | none =>
      match caseRuns.findSome? (·.map? c.toNat) with
      | some u => [Char.ofNat u]
      | none => [c]

/-- The upper case of a text. -/
def upper (s : String) : String := String.ofList (s.toList.flatMap upperChar)

/-- The upper case of the letters a to z; all other characters stay. -/
def upperAscii (s : String) : String := String.ofList (s.toList.map Char.toUpper)

/-- The lower case of the letters A to Z; all other characters stay. -/
def lowerAscii (s : String) : String := String.ofList (s.toList.map Char.toLower)

/-- Whether a character is one of the letters A to Z in either case. -/
def isAsciiLetter (c : Char) : Bool := c.isAlpha

theorem toList_upper (s : String) : (upper s).toList = s.toList.flatMap upperChar :=
  String.toList_ofList

theorem upper_append (s t : String) : upper (s ++ t) = upper s ++ upper t := by
  apply String.toList_inj.1
  simp [toList_upper]

end WordDuel.Text
