import WordDuel.Failure
import WordDuel.Words.WordList
/-!
# WordDuel.Words.Dictionary

**Which words may be guessed and which may be the target**, per language. A
dictionary answers both questions or fails; a lexicon is a dictionary made of
word lists, in which every possible target may be guessed.
-/

namespace WordDuel

/-- The two lists of words of a language. -/
inductive WordKind
  /-- Words that may be guessed. -/
  | allowed
  /-- Words that may be the target. -/
  | answers
  deriving DecidableEq, Repr

/-- A source of words, which may fail. -/
abbrev WordSource := Language → WordKind → Except DictionaryCause WordSet

/-- What the game asks about words. -/
structure Dictionary where
  /-- The words that may be guessed. -/
  allowed : Language → Result WordSet
  /-- The words that may be the target. -/
  answers : Language → Result WordSet

namespace Dictionary

/-- The dictionary that asks a source every time. -/
def ofSource (source : WordSource) : Dictionary where
  allowed l := (source l .allowed).mapError .dictionary
  answers l := (source l .answers).mapError .dictionary

/-- The dictionary that fails every time. -/
def failing (cause : DictionaryCause) : Dictionary := ofSource fun _ _ => .error cause

end Dictionary

/-- Word lists per language, held in memory. -/
structure Lexicon where
  /-- The words that may be guessed. -/
  allowed : Language → WordSet
  /-- The words that may be the target. -/
  answers : Language → WordSet

namespace Lexicon

/-- The lexicon without words. -/
def empty : Lexicon := ⟨fun _ => .empty, fun _ => .empty⟩

/-- Set the lists of a language. What may be the target may be guessed too. -/
def withLanguage (lexicon : Lexicon) (l : Language) (allowed answers : String) : Lexicon :=
  let answers := WordList.parse answers
  let allowed := (WordList.parse allowed).union answers
  { allowed := fun m => if m = l then allowed else lexicon.allowed m
    answers := fun m => if m = l then answers else lexicon.answers m }

/-- A lexicon as a dictionary, which never fails. -/
def toDictionary (lexicon : Lexicon) : Dictionary where
  allowed l := .ok (lexicon.allowed l)
  answers l := .ok (lexicon.answers l)

end Lexicon

end WordDuel
