import WordDuel.Words.Dictionary
/-!
# WordDuel.GuessRules

**Which guesses are legal.** A guess is trimmed and put in upper case first; then
its length, its characters, the language and the dictionary are looked at in this
order, and the first rule that is broken is the one reported.
-/

namespace WordDuel

namespace GuessRules

/-- A guess as it counts: without white space around it and in upper case. -/
def normalize (raw : String) : String := Text.upper (Text.trim raw)

/-- Whether a word consists of the letters A to Z in either case, and has one. -/
def isAlphabetic (word : String) : Bool :=
  !word.toList.isEmpty && word.toList.all Text.isAsciiLetter

/-- A length as it is reported, in 32 bits. -/
def reported (length : Nat) : Nat := length % 4294967296

/-- The length rule: as long as the rules demand, and as the target. -/
def checkLength (wordLength : Nat) (guess target : String) : Except Refusal Unit :=
  if guess.length ≠ wordLength then
    .error (.invalidGuessLength (reported wordLength) (reported guess.length))
  else if guess.length ≠ target.length then
    .error (.invalidGuessLength (reported target.length) (reported guess.length))
  else .ok ()

/-- Check a normalized guess against the target and the room's language. -/
def check (dictionary : Dictionary) (wordLength : Nat) (guess target : String)
    (language : Option Language) : Result Unit :=
  match checkLength wordLength guess target with
  | .error refusal => .error refusal
  | .ok () =>
    if !isAlphabetic guess then .error (.refused (.invalidGuessChars guess))
    else
      match language with
      | none => .error (.refused .invalidLanguage)
      | some l =>
        match dictionary.allowed l with
        | .error failure => .error failure
        | .ok words =>
          if words.has (Text.upperAscii guess) then .ok ()
          else .error (.refused (.wordNotAllowed (Text.upperAscii guess)))

end GuessRules

end WordDuel
