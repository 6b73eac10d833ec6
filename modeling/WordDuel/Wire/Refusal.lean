import WordDuel.Refusal
import WordDuel.Wire.View
/-!
# WordDuel.Wire.Refusal

**JSON of refusals.**
-/

namespace WordDuel

namespace Refusal

/-- A refusal with a single field. -/
def single [Codec α] (name field : String) (value : α) : Json :=
  .ofMembers [(name, .ofMembers [(field, encode value)])]

/-- Read the only field of a refusal. -/
def single? [Codec α] (field : String) (content : Json) : Option α := do
  let [value] ← content.fields? [field] | none
  Json.required? value

/-- Write a refusal. -/
def toJson : Refusal → Json
  | .roomNotFound room => single "RoomNotFound" "room_id" room
  | .roomFull room => single "RoomFull" "room_id" room
  | .roomClosed room => single "RoomClosed" "room_id" room
  | .roomBusy room => single "RoomBusy" "room_id" room
  | .roomNotReady room => single "RoomNotReady" "room_id" room
  | .roomAccessDenied room => single "RoomAccessDenied" "room_id" room
  | .playerNotInRoom player => single "PlayerNotInRoom" "player_id" player
  | .playerAlreadyDone player => single "PlayerAlreadyDone" "player_id" player
  | .invalidGuessLength expected actual => .ofMembers [("InvalidGuessLength", .ofMembers
      [("expected", encode expected), ("actual", encode actual)])]
  | .invalidGuessChars guess => single "InvalidGuessChars" "guess" guess
  | .invalidLanguage => .text "InvalidLanguage"
  | .wordNotAllowed word => single "WordNotAllowed" "word" word
  | .noAttemptsLeft maxAttempts => single "NoAttemptsLeft" "max_attempts" maxAttempts
  | .dictionaryEmpty language => single "DictionaryEmpty" "language" language

/-- Read the content of a refusal, given its name. -/
def ofContent? (name : String) (content : Json) : Option Refusal :=
  match name with
  | "RoomNotFound" => (single? "room_id" content).map .roomNotFound
  | "RoomFull" => (single? "room_id" content).map .roomFull
  | "RoomClosed" => (single? "room_id" content).map .roomClosed
  | "RoomBusy" => (single? "room_id" content).map .roomBusy
  | "RoomNotReady" => (single? "room_id" content).map .roomNotReady
  | "RoomAccessDenied" => (single? "room_id" content).map .roomAccessDenied
  | "PlayerNotInRoom" => (single? "player_id" content).map .playerNotInRoom
  | "PlayerAlreadyDone" => (single? "player_id" content).map .playerAlreadyDone
  | "InvalidGuessLength" => do
    let [expected, actual] ← content.fields? ["expected", "actual"] | none
    return .invalidGuessLength (← Json.required? expected) (← Json.required? actual)
  | "InvalidGuessChars" => (single? "guess" content).map .invalidGuessChars
  | "WordNotAllowed" => (single? "word" content).map .wordNotAllowed
  | "NoAttemptsLeft" => (single? "max_attempts" content).map .noAttemptsLeft
  | "DictionaryEmpty" => (single? "language" content).map .dictionaryEmpty
  | _ => none

/-- Read a refusal. -/
def ofJson? (v : Json) : Option Refusal := do
  let (name, content) ← v.choice?
  if name = "InvalidLanguage" then
    if Json.isNothing content then some .invalidLanguage else none
  else content.bind (ofContent? name)

instance : Codec Refusal := ⟨toJson, ofJson?⟩

end Refusal

end WordDuel
