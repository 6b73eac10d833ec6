import WordDuel.Uuid
/-!
# WordDuel.Event

**What is announced about a room** once a change to it is stored.
-/

namespace WordDuel

/-- A player's points. -/
structure Score where
  player : PlayerId
  /-- The number of rounds the player has won. -/
  points : Int
  deriving DecidableEq

/-- A change to a room that others are told about. -/
inductive Event
  /-- The room came into being. -/
  | roomCreated (player : PlayerId) (players : List PlayerId)
  /-- A player came in, or came back. -/
  | playerJoined (player : PlayerId) (players : List PlayerId)
  /-- A round was opened. -/
  | roundStarted (number maxAttempts : Nat)
  /-- A round came to its end. -/
  | roundFinished (number : Nat)
  /-- The points are to be shown anew. -/
  | scoresUpdated (scores : List Score)
  deriving DecidableEq

/-- The kind of an event, for logs and routing. -/
def Event.kind : Event → String
  | .roomCreated _ _ => "room_created"
  | .playerJoined _ _ => "player_joined"
  | .roundStarted _ _ => "round_started"
  | .roundFinished _ => "round_finished"
  | .scoresUpdated _ => "scores_updated"

/-- An event addressed to the room it is about. -/
structure Envelope where
  room : RoomId
  /-- What happened in it. -/
  event : Event
  deriving DecidableEq

end WordDuel
