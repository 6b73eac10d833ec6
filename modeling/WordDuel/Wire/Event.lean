import WordDuel.Wire.View
/-!
# WordDuel.Wire.Event

**JSON of events** and of the envelopes in which they are delivered.
-/

namespace WordDuel

instance : Codec Event where
  encode
    | .roomCreated player players => .ofMembers [("RoomCreated", .ofMembers
        [("player_id", encode player), ("players", encode players)])]
    | .playerJoined player players => .ofMembers [("PlayerJoined", .ofMembers
        [("player_id", encode player), ("players", encode players)])]
    | .roundStarted number maxAttempts => .ofMembers [("RoundStarted", .ofMembers
        [("round_number", encode number), ("max_attempts", encode maxAttempts)])]
    | .roundFinished number => .ofMembers [("RoundFinished", .ofMembers
        [("round_number", encode number)])]
    | .scoresUpdated scores => .ofMembers [("ScoresUpdated", .ofMembers
        [("scores", encode scores)])]
  decode? v := do
    let (name, some content) ← v.choice? | none
    if name = "RoomCreated" then do
      let [player, players] ← content.fields? ["player_id", "players"] | none
      return .roomCreated (← Json.required? player) (← Json.required? players)
    else if name = "PlayerJoined" then do
      let [player, players] ← content.fields? ["player_id", "players"] | none
      return .playerJoined (← Json.required? player) (← Json.required? players)
    else if name = "RoundStarted" then do
      let [number, maxAttempts] ← content.fields? ["round_number", "max_attempts"] | none
      return .roundStarted (← Json.required? number) (← Json.required? maxAttempts)
    else if name = "RoundFinished" then do
      let [number] ← content.fields? ["round_number"] | none
      return .roundFinished (← Json.required? number)
    else if name = "ScoresUpdated" then do
      let [scores] ← content.fields? ["scores"] | none
      return .scoresUpdated (← Json.required? scores)
    else none

instance : Codec Envelope where
  encode e := .ofMembers [("room_id", encode e.room), ("event", encode e.event)]
  decode? v := do
    let [room, event] ← v.fields? ["room_id", "event"] | none
    return ⟨← Json.required? room, ← Json.required? event⟩

end WordDuel
