/-!
# WordDuel.Letter

**Marked letters**: what a player is told about each letter of a guess.
-/

namespace WordDuel

/-- What a player is told about a letter of a guess. -/
inductive Mark
  /-- The target has this letter in this place. -/
  | correct
  /-- The target has this letter in another place. -/
  | present
  /-- The target has no further such letter. -/
  | absent
  deriving DecidableEq, Repr

namespace Mark

/-- Every mark. -/
def all : List Mark := [.correct, .present, .absent]

/-- The name of a mark. -/
def name : Mark → String
  | .correct => "CORRECT"
  | .present => "PRESENT"
  | .absent => "ABSENT"

end Mark

/-- A letter of a guess with its mark. -/
structure MarkedLetter where
  /-- The guessed letter. -/
  letter : Char
  /-- What the player is told about it. -/
  mark : Mark
  deriving DecidableEq

end WordDuel
