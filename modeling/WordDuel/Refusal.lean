import WordDuel.Language
import WordDuel.Text.Decimal
import WordDuel.Uuid
/-!
# WordDuel.Refusal

**Why a move is refused**: the expected outcomes that a player is told about,
each with a stable code and a wording.
-/

namespace WordDuel

/-- A move that the rules of the game do not allow. -/
inductive Refusal
  /-- There is no such room. -/
  | roomNotFound (room : RoomId)
  /-- The room has both its players. -/
  | roomFull (room : RoomId)
  | roomClosed (room : RoomId)
  /-- Somebody else is changing the room. -/
  | roomBusy (room : RoomId)
  /-- The room does not have its two players. -/
  | roomNotReady (room : RoomId)
  /-- The room is none of this player's business. -/
  | roomAccessDenied (room : RoomId)
  /-- The player has no part in the room. -/
  | playerNotInRoom (player : PlayerId)
  /-- The player has won or lost the round. -/
  | playerAlreadyDone (player : PlayerId)
  /-- The guess has the wrong number of letters. -/
  | invalidGuessLength (expected actual : Nat)
  /-- The guess has other characters than the letters A to Z. -/
  | invalidGuessChars (guess : String)
  /-- The room has no language that is played. -/
  | invalidLanguage
  /-- The word is not in the dictionary. -/
  | wordNotAllowed (word : String)
  /-- The player has used up all attempts. -/
  | noAttemptsLeft (maxAttempts : Nat)
  /-- There is no word to play for. -/
  | dictionaryEmpty (language : Language)
  deriving DecidableEq

namespace Refusal

/-- The stable code of a refusal. -/
def code : Refusal → String
  | .roomNotFound _ => "ROOM_NOT_FOUND"
  | .roomFull _ => "ROOM_FULL"
  | .roomClosed _ => "ROOM_CLOSED"
  | .roomBusy _ => "ROOM_BUSY"
  | .roomNotReady _ => "ROOM_NOT_READY"
  | .roomAccessDenied _ => "ROOM_ACCESS_DENIED"
  | .playerNotInRoom _ => "PLAYER_NOT_IN_ROOM"
  | .playerAlreadyDone _ => "PLAYER_ALREADY_DONE"
  | .invalidGuessLength _ _ => "INVALID_GUESS_LENGTH"
  | .invalidGuessChars _ => "INVALID_GUESS_CHARS"
  | .invalidLanguage => "INVALID_LANGUAGE"
  | .wordNotAllowed _ => "WORD_NOT_ALLOWED"
  | .noAttemptsLeft _ => "NO_ATTEMPTS_LEFT"
  | .dictionaryEmpty _ => "DICTIONARY_EMPTY"

/-- Whether the same move may succeed a moment later. -/
def isRetryable : Refusal → Bool
  | .roomBusy _ => true
  | _ => false

/-- What the player is told. -/
def message : Refusal → String
  | .roomNotFound room => "room " ++ room.toText ++ " not found"
  | .roomFull room => "room " ++ room.toText ++ " is full"
  | .roomClosed room => "room " ++ room.toText ++ " is closed"
  | .roomBusy room => "room " ++ room.toText ++ " is busy, retry later"
  | .roomNotReady room => "room " ++ room.toText ++ " needs two players"
  | .roomAccessDenied room => "access to room " ++ room.toText ++ " denied"
  | .playerNotInRoom player => "player " ++ player.toText ++ " is not in this room"
  | .playerAlreadyDone player => "player " ++ player.toText ++ " already finished this round"
  | .invalidGuessLength expected actual =>
    "guess must be " ++ Decimal.ofNat expected ++ " letters, got " ++ Decimal.ofNat actual
  | .invalidGuessChars guess => "guess may only contain letters A-Z: " ++ guess
  | .invalidLanguage => "room has no valid language"
  | .wordNotAllowed word => "word not allowed: " ++ word
  | .noAttemptsLeft maxAttempts => "no attempts left (max " ++ Decimal.ofNat maxAttempts ++ ")"
  | .dictionaryEmpty language => "no answer words available for " ++ language.code

end Refusal

end WordDuel
