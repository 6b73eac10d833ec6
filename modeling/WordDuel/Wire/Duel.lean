import WordDuel.Duel
import WordDuel.Wire.View
/-!
# WordDuel.Wire.Duel

**JSON of a duel in full**, with everything that players are not shown. Times are
pairs of seconds and nanoseconds here, and what is kept per player is an object with
the players as keys.
-/

namespace WordDuel

instance : Codec Instant where
  encode t := .array [.int t.seconds, .nat t.nanos]
  decode?
    | .array [.int seconds, .int (.ofNat nanos)] => some ⟨seconds, nanos⟩
    | _ => none

instance [Codec α] : Codec (SortedMap PlayerId α) where
  encode m := .ofMembers (m.entries.map fun p => (p.1.toText, encode p.2))
  decode?
    | .object members => do
      let entries ← members.mapM fun m => do
        return (← Uuid.ofText? (← m.1), ← decode? m.2)
      return .ofList entries
    | _ => none

instance : Codec Guess where
  encode g := .ofMembers
    [("player_id", encode g.player), ("word", encode g.word), ("attempt_number", encode g.attempt),
     ("letters", encode g.letters), ("created_at", encode g.createdAt)]
  decode? v := do
    let [player, word, attempt, letters, createdAt] ←
      v.fields? ["player_id", "word", "attempt_number", "letters", "created_at"] | none
    return ⟨← Json.required? player, ← Json.required? word, ← Json.required? attempt,
      ← Json.required? letters, ← Json.required? createdAt⟩

instance : Codec Round where
  encode r := .ofMembers
    [("room_id", encode r.room), ("number", encode r.number), ("target_word", encode r.target),
     ("max_attempts", encode r.maxAttempts), ("status", encode r.status),
     ("player_status", encode r.standings), ("guesses", encode r.guesses),
     ("started_at", encode r.startedAt), ("finished_at", encode r.finishedAt)]
  decode? v := do
    let [room, number, target, maxAttempts, status, standings, guesses, startedAt, finishedAt] ←
      v.fields? ["room_id", "number", "target_word", "max_attempts", "status", "player_status",
        "guesses", "started_at", "finished_at"] | none
    return ⟨← Json.required? room, ← Json.required? number, ← Json.required? target,
      ← Json.required? maxAttempts, ← Json.required? status, ← Json.required? standings,
      ← Json.required? guesses, ← Json.required? startedAt, ← Json.optional? finishedAt⟩

instance : Codec Room where
  encode r := .ofMembers
    [("id", encode r.id), ("language", encode r.language), ("status", encode r.status),
     ("players", encode r.players), ("scores", encode r.scores),
     ("current_round", encode r.currentRound), ("created_at", encode r.createdAt)]
  decode? v := do
    let [id, language, status, players, scores, currentRound, createdAt] ←
      v.fields? ["id", "language", "status", "players", "scores", "current_round",
        "created_at"] | none
    return ⟨← Json.required? id, ← Json.required? language, ← Json.required? status,
      ← Json.required? players, ← Json.required? scores, ← Json.optional? currentRound,
      ← Json.required? createdAt⟩

instance : Codec Duel where
  encode d := .ofMembers [("room", encode d.room), ("rounds", encode d.rounds)]
  decode? v := do
    let [room, rounds] ← v.fields? ["room", "rounds"] | none
    return ⟨← Json.required? room, ← Json.required? rounds⟩

end WordDuel
