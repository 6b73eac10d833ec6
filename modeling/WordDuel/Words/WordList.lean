import WordDuel.SortedMap
import WordDuel.Text.Blank
import WordDuel.Text.Uppercase
/-!
# WordDuel.Words.WordList

**Word lists as text**: one word per line, in any case; blank lines and lines that
begin with `#` are skipped. A list denotes the set of its words in upper case.
-/

namespace WordDuel

/-- A set of upper-case words, listed in code point order. -/
abbrev WordSet := SortedMap String Unit

namespace WordSet

/-- The words of a set in order. -/
def words (s : WordSet) : List String := s.keys

/-- The set of some words. -/
def ofWords (ws : List String) : WordSet := SortedMap.ofList (ws.map (·, ()))

/-- Whether a word is in the set. -/
def has (s : WordSet) (w : String) : Bool := s.contains w

end WordSet

namespace WordList

/-- The lines of a text, without their line feeds. -/
def lines : List Char → List (List Char)
  | [] => [[]]
  | c :: rest =>
    if c = '\n' then [] :: lines rest
    else
      match lines rest with
      | [] => [[c]]
      | line :: more => (c :: line) :: more

/-- The word on a line, if there is one. White space around it is dropped, which
takes a carriage return at the end of the line along. -/
def wordOnLine? (line : List Char) : Option String :=
  match Text.trimChars line with
  | [] => none
  | c :: cs => if c = '#' then none else some (Text.upper (String.ofList (c :: cs)))

/-- The set of words that a text lists. -/
def parse (text : String) : WordSet :=
  WordSet.ofWords ((lines text.toList).filterMap wordOnLine?)

end WordList

end WordDuel
