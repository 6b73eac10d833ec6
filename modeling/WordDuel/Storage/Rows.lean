import WordDuel.Storage.Held
import WordDuel.Storage.Records
/-!
# WordDuel.Storage.Rows

**The rows of the tables.** A row holds a record; its columns of text always can be
read, and those of any other type unless somebody has spoilt them by hand. Columns are
read in their order, and the first that cannot be read is reported.
-/

namespace WordDuel

/-! ### Rooms -/

/-- A row of the table of rooms, keyed by room. -/
structure RoomRow where
  id : Held RoomId
  language : String
  status : String
  currentRound : Held (Option Int)
  createdAt : Held Instant
  deriving DecidableEq

/-- The row that holds a record. -/
def RoomRow.ofRecord (r : RoomRecord) : RoomRow :=
  ⟨.value r.id, r.language, r.status, .value r.currentRound, .value r.createdAt⟩

/-- Read a row. -/
def RoomRow.read (row : RoomRow) : Except DatabaseError RoomRecord := do
  let id ← row.id.read
  let currentRound ← row.currentRound.read
  let createdAt ← row.createdAt.read
  return ⟨id, row.language, row.status, currentRound, createdAt⟩

@[simp] theorem RoomRow.read_ofRecord (r : RoomRecord) : (ofRecord r).read = .ok r := rfl

/-! ### Rosters -/

/-- A row of the table of players on a roster, keyed by room and player. -/
structure RosterRow where
  room : Held RoomId
  player : Held PlayerId
  position : Held Int
  score : Held Int
  deriving DecidableEq

/-- The row that holds a record. -/
def RosterRow.ofRecord (r : RosterRecord) : RosterRow :=
  ⟨.value r.room, .value r.player, .value r.position, .value r.score⟩

/-- Read a row. -/
def RosterRow.read (row : RosterRow) : Except DatabaseError RosterRecord := do
  let room ← row.room.read
  let player ← row.player.read
  let position ← row.position.read
  let score ← row.score.read
  return ⟨room, player, position, score⟩

@[simp] theorem RosterRow.read_ofRecord (r : RosterRecord) : (ofRecord r).read = .ok r := rfl

/-! ### Rounds -/

/-- A row of the table of rounds, keyed by room and number. -/
structure RoundRow where
  room : Held RoomId
  number : Held Int
  target : String
  maxAttempts : Held Int
  status : String
  startedAt : Held Instant
  finishedAt : Held (Option Instant)
  deriving DecidableEq

/-- The row that holds a record. -/
def RoundRow.ofRecord (r : RoundRecord) : RoundRow :=
  ⟨.value r.room, .value r.number, r.target, .value r.maxAttempts, r.status, .value r.startedAt,
    .value r.finishedAt⟩

/-- Read a row. -/
def RoundRow.read (row : RoundRow) : Except DatabaseError RoundRecord := do
  let room ← row.room.read
  let number ← row.number.read
  let maxAttempts ← row.maxAttempts.read
  let startedAt ← row.startedAt.read
  let finishedAt ← row.finishedAt.read
  return ⟨room, number, row.target, maxAttempts, row.status, startedAt, finishedAt⟩

@[simp] theorem RoundRow.read_ofRecord (r : RoundRecord) : (ofRecord r).read = .ok r := rfl

/-! ### Standings -/

/-- A row of the table of standings, keyed by room, round and player. -/
structure StandingRow where
  room : Held RoomId
  round : Held Int
  player : Held PlayerId
  status : String
  deriving DecidableEq

/-- The row that holds a record. -/
def StandingRow.ofRecord (r : StandingRecord) : StandingRow :=
  ⟨.value r.room, .value r.round, .value r.player, r.status⟩

/-- Read a row. -/
def StandingRow.read (row : StandingRow) : Except DatabaseError StandingRecord := do
  let room ← row.room.read
  let round ← row.round.read
  let player ← row.player.read
  return ⟨room, round, player, row.status⟩

@[simp] theorem StandingRow.read_ofRecord (r : StandingRecord) : (ofRecord r).read = .ok r := rfl

/-! ### Guesses -/

/-- A row of the table of guesses, keyed by room, round, player and attempt. -/
structure GuessRow where
  room : Held RoomId
  round : Held Int
  player : Held PlayerId
  attempt : Held Int
  sequence : Held Int
  word : String
  letters : String
  createdAt : Held Instant
  deriving DecidableEq

/-- The row that holds a record. -/
def GuessRow.ofRecord (r : GuessRecord) : GuessRow :=
  ⟨.value r.room, .value r.round, .value r.player, .value r.attempt, .value r.sequence, r.word,
    r.letters, .value r.createdAt⟩

/-- Read a row. -/
def GuessRow.read (row : GuessRow) : Except DatabaseError GuessRecord := do
  let room ← row.room.read
  let round ← row.round.read
  let player ← row.player.read
  let attempt ← row.attempt.read
  let sequence ← row.sequence.read
  let createdAt ← row.createdAt.read
  return ⟨room, round, player, attempt, sequence, row.word, row.letters, createdAt⟩

@[simp] theorem GuessRow.read_ofRecord (r : GuessRecord) : (ofRecord r).read = .ok r := rfl

end WordDuel
