import WordDuel.Text.Blank
import WordDuel.Text.Uppercase
/-!
# WordDuel.Language

**The languages a room can be played in**, each with a two-letter code.
-/

namespace WordDuel

/-- A language that rooms are played in. -/
inductive Language
  | english
  | italian
  deriving DecidableEq, Repr

namespace Language

instance : Inhabited Language := ⟨.english⟩

/-- Every language, in the order in which they are offered. -/
def all : List Language := [.english, .italian]

/-- The code by which a language is written. -/
def code : Language → String
  | .english => "EN"
  | .italian => "IT"

/-- The name of a language's directory of word lists: its code in lower case. -/
def directory (l : Language) : String := Text.lowerAscii l.code

/-- The language of an exact code. -/
def ofExactCode? (s : String) : Option Language := all.find? fun l => l.code == s

/-- The language a player asked for: white space around the code and the case of
its letters do not matter. -/
def ofCode? (s : String) : Option Language := ofExactCode? (Text.upperAscii (Text.trim s))

theorem mem_all (l : Language) : l ∈ all := by cases l <;> simp [all]

theorem code_injective {a b : Language} (h : a.code = b.code) : a = b := by
  cases a <;> cases b <;> first | rfl | exact absurd h (by decide)

@[simp] theorem ofExactCode?_code (l : Language) : ofExactCode? l.code = some l := by
  cases l <;> decide

end Language

end WordDuel
