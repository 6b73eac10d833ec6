import WordDuel.View
import WordDuel.Wire.Codec
/-!
# WordDuel.Wire.View

**JSON of views** and of what they are made of.
-/

namespace WordDuel

/-! ### Names -/

instance : Codec Language where
  encode l := .text l.code
  decode? := Json.bare? Language.code Language.all

instance : Codec RoomStatus where
  encode s := .text s.name
  decode? := Json.bare? RoomStatus.name RoomStatus.all

instance : Codec RoundStatus where
  encode s := .text s.name
  decode? := Json.bare? RoundStatus.name RoundStatus.all

instance : Codec Standing where
  encode s := .text s.name
  decode? := Json.bare? Standing.name Standing.all

instance : Codec Mark where
  encode m := .text m.name
  decode? := Json.bare? Mark.name Mark.all

/-! ### Records -/

instance : Codec MarkedLetter where
  encode l := .ofMembers [("letter", encode l.letter), ("status", encode l.mark)]
  decode? v := do
    let [letter, mark] ← v.fields? ["letter", "status"] | none
    return ⟨← Json.required? letter, ← Json.required? mark⟩

instance : Codec Score where
  encode s := .ofMembers [("player_id", encode s.player), ("score", encode s.points)]
  decode? v := do
    let [player, points] ← v.fields? ["player_id", "score"] | none
    return ⟨← Json.required? player, ← Json.required? points⟩

instance : Codec Progress where
  encode p := .ofMembers
    [("player_id", encode p.player), ("status", encode p.standing),
     ("attempts_used", encode p.attemptsUsed)]
  decode? v := do
    let [player, standing, attemptsUsed] ←
      v.fields? ["player_id", "status", "attempts_used"] | none
    return ⟨← Json.required? player, ← Json.required? standing, ← Json.required? attemptsUsed⟩

instance : Codec GuessView where
  encode g := .ofMembers
    [("player_id", encode g.player), ("attempt_number", encode g.attempt),
     ("word", encode g.word), ("letters", encode g.letters), ("created_at", encode g.createdAt)]
  decode? v := do
    let [player, attempt, word, letters, createdAt] ←
      v.fields? ["player_id", "attempt_number", "word", "letters", "created_at"] | none
    return ⟨← Json.required? player, ← Json.required? attempt, ← Json.optional? word,
      ← Json.required? letters, ← Json.required? createdAt⟩

instance : Codec RoundView where
  encode r := .ofMembers
    [("number", encode r.number), ("word_length", encode r.wordLength),
     ("max_attempts", encode r.maxAttempts), ("status", encode r.status),
     ("target_word", encode r.target), ("players", encode r.players),
     ("guesses", encode r.guesses), ("started_at", encode r.startedAt),
     ("finished_at", encode r.finishedAt)]
  decode? v := do
    let [number, wordLength, maxAttempts, status, target, players, guesses, startedAt,
        finishedAt] ←
      v.fields? ["number", "word_length", "max_attempts", "status", "target_word", "players",
        "guesses", "started_at", "finished_at"] | none
    return ⟨← Json.required? number, ← Json.required? wordLength, ← Json.required? maxAttempts,
      ← Json.required? status, ← Json.optional? target, ← Json.required? players,
      ← Json.required? guesses, ← Json.required? startedAt, ← Json.optional? finishedAt⟩

instance : Codec RoomView where
  encode r := .ofMembers
    [("id", encode r.id), ("language", encode r.language), ("status", encode r.status),
     ("players", encode r.players), ("current_round", encode r.currentRound),
     ("created_at", encode r.createdAt)]
  decode? v := do
    let [id, language, status, players, currentRound, createdAt] ←
      v.fields? ["id", "language", "status", "players", "current_round", "created_at"] | none
    return ⟨← Json.required? id, ← Json.required? language, ← Json.required? status,
      ← Json.required? players, ← Json.optional? currentRound, ← Json.required? createdAt⟩

end WordDuel
