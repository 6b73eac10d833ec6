import WordDuel.Duel
import WordDuel.Failure
import WordDuel.Wire.View
/-!
# WordDuel.Storage.Records

**What the tables record of a duel**, and how its parts are put down and made out
again. Stages are recorded by name and letters as JSON; numbers that are not negative
go through signed 32-bit columns and come back unchanged.
-/

namespace WordDuel

/-! ### Records -/

/-- A record of a room. -/
structure RoomRecord where
  /-- The room. -/
  id : RoomId
  /-- The code of the language. -/
  language : String
  /-- The name of the stage. -/
  status : String
  /-- The number of the current round. -/
  currentRound : Option Int
  /-- When the room came into being. -/
  createdAt : Instant
  deriving DecidableEq

/-- A record of a player on the roster of a room. -/
structure RosterRecord where
  room : RoomId
  player : PlayerId
  /-- The place on the roster. -/
  position : Int
  /-- The points. -/
  score : Int
  deriving DecidableEq

/-- A record of a round. -/
structure RoundRecord where
  room : RoomId
  /-- The number of the round. -/
  number : Int
  /-- The word to be found. -/
  target : String
  /-- How many guesses each player has. -/
  maxAttempts : Int
  /-- The name of the stage. -/
  status : String
  /-- When the round was opened. -/
  startedAt : Instant
  /-- When the round ended. -/
  finishedAt : Option Instant
  deriving DecidableEq

/-- A record of how a player stands in a round. -/
structure StandingRecord where
  room : RoomId
  /-- The number of the round. -/
  round : Int
  player : PlayerId
  /-- The name of the standing. -/
  status : String
  deriving DecidableEq

/-- A record of a guess. -/
structure GuessRecord where
  room : RoomId
  /-- The number of the round. -/
  round : Int
  /-- Who guessed. -/
  player : PlayerId
  /-- Which of the player's attempts it is. -/
  attempt : Int
  /-- The place among the guesses of the round. -/
  sequence : Int
  /-- The guessed word. -/
  word : String
  /-- The marked letters as JSON. -/
  letters : String
  /-- When the guess was made. -/
  createdAt : Instant
  deriving DecidableEq

/-! ### Numbers in 32-bit columns -/

/-- A number in a signed 32-bit column: large numbers wrap around to negative ones. -/
def toColumn (n : Nat) : Int := Int.bmod n 4294967296

/-- The number that was put in a signed 32-bit column. -/
def ofColumn (n : Int) : Nat := (n % 4294967296).toNat

theorem ofColumn_toColumn {n : Nat} (h : n < 4294967296) : ofColumn (toColumn n) = n := by
  have e : toColumn n % 4294967296 = n % 4294967296 := Int.bmod_emod
  rw [ofColumn, e, Int.emod_eq_of_lt (Int.natCast_nonneg n) (by omega), Int.toNat_natCast]

theorem ofColumn_lt (n : Int) : ofColumn n < 4294967296 := by
  have hbound : n % 4294967296 < 4294967296 := Int.emod_lt_of_pos n (by decide)
  rw [ofColumn]
  omega

/-- What a column holds is put down in it again after it has been read. -/
theorem toColumn_ofColumn {n : Int} (h : -2147483648 ≤ n ∧ n ≤ 2147483647) :
    toColumn (ofColumn n) = n := by
  have hback : ((ofColumn n : Nat) : Int) = n % 4294967296 :=
    Int.toNat_of_nonneg (Int.emod_nonneg _ (by decide))
  have hsmall : Int.bmod n 4294967296 = n := Int.bmod_eq_of_le_mul_two (by omega) (by omega)
  show Int.bmod ((ofColumn n : Nat) : Int) 4294967296 = n
  rw [hback]
  exact (Int.emod_bmod ..).trans hsmall

/-- What comes back from a column is put down in the same way. -/
theorem toColumn_ofColumn_toColumn (n : Nat) : toColumn (ofColumn (toColumn n)) = toColumn n := by
  have hback : ((ofColumn (toColumn n) : Nat) : Int) = toColumn n % 4294967296 :=
    Int.toNat_of_nonneg (Int.emod_nonneg _ (by decide))
  show Int.bmod ((ofColumn (toColumn n) : Nat) : Int) 4294967296 = _
  rw [hback]
  exact (Int.emod_bmod ..).trans Int.bmod_bmod

theorem toColumn_of_lt {n : Nat} (h : n < 2147483648) : toColumn n = n :=
  Int.bmod_eq_of_le_mul_two (by omega) (by omega)

theorem toColumn_inj {m n : Nat} (hm : m < 4294967296) (hn : n < 4294967296) :
    toColumn m = toColumn n ↔ m = n := by
  refine ⟨fun h => ?_, congrArg toColumn⟩
  rw [← ofColumn_toColumn hm, h, ofColumn_toColumn hn]

/-- Columns keep numbers in order as long as they hold them unchanged. -/
theorem toColumn_lt {m n : Nat} (hlt : m < n) (hn : n < 2147483648) : toColumn m < toColumn n := by
  rw [toColumn_of_lt (Nat.lt_trans hlt hn), toColumn_of_lt hn]
  exact Int.ofNat_lt.2 hlt

example : toColumn 2147483648 = -2147483648 := by decide

/-! ### Putting down -/

/-- The record of a room. -/
def RoomRecord.ofRoom (room : Room) : RoomRecord where
  id := room.id
  language := room.language.code
  status := room.status.name
  currentRound := room.currentRound.map toColumn
  createdAt := room.createdAt

/-- The records of a roster, numbered from 0. -/
def RosterRecord.ofRoom (room : Room) : List RosterRecord :=
  room.players.zipIdx.map fun (player, position) =>
    ⟨room.id, player, toColumn position, room.pointsOf player⟩

/-- The record of a round. -/
def RoundRecord.ofRound (round : Round) : RoundRecord where
  room := round.room
  number := toColumn round.number
  target := round.target
  maxAttempts := toColumn round.maxAttempts
  status := round.status.name
  startedAt := round.startedAt
  finishedAt := round.finishedAt

/-- The records of the standings of a round. -/
def StandingRecord.ofRound (room : RoomId) (round : Round) : List StandingRecord :=
  round.standings.entries.map fun (player, standing) =>
    ⟨room, toColumn round.number, player, standing.name⟩

/-- The record of a guess at a place in its round. -/
def GuessRecord.ofGuess (room : RoomId) (number : Nat) (sequence : Nat) (guess : Guess) :
    GuessRecord where
  room := room
  round := toColumn number
  player := guess.player
  attempt := toColumn guess.attempt
  sequence := toColumn sequence
  word := guess.word
  letters := encodeText guess.letters
  createdAt := guess.createdAt

/-- The records of the guesses of a round but for the first `stored`. -/
def GuessRecord.ofRound (room : RoomId) (round : Round) (stored : Nat) : List GuessRecord :=
  (round.guesses.zipIdx.drop stored).map fun (guess, sequence) =>
    ofGuess room round.number sequence guess

/-! ### Making out -/

/-- Read a stage by its name. -/
def readStage (r : Except UnknownName α) : Except StorageCause α := r.mapError .unknownName

/-- Make out a room from its record and those of its roster. -/
def RoomRecord.toRoom (record : RoomRecord) (roster : List RosterRecord) :
    Except StorageCause Room := do
  let some language := Language.ofCode? record.language
    | throw (.unknownLanguage record.id record.language)
  let status ← readStage (RoomStatus.ofName record.status)
  return {
    id := record.id
    language, status
    players := roster.map RosterRecord.player
    scores := .ofList (roster.map fun r => (r.player, r.score))
    currentRound := record.currentRound.map ofColumn
    createdAt := record.createdAt }

/-- Make out a standing. -/
def StandingRecord.toStanding (record : StandingRecord) :
    Except StorageCause (PlayerId × Standing) := do
  return (record.player, ← readStage (Standing.ofName record.status))

/-- Make out a guess. -/
def GuessRecord.toGuess (record : GuessRecord) : Except StorageCause Guess :=
  match decodeText? record.letters with
  | some letters =>
    .ok ⟨record.player, record.word, ofColumn record.attempt, letters, record.createdAt⟩
  | none => .error (.badLetters record.attempt record.round)

/-- Make out a round from its record and those of its standings and guesses. The
standings come first, then the guesses, then the stage of the round. -/
def RoundRecord.toRound (record : RoundRecord) (standings : List StandingRecord)
    (guesses : List GuessRecord) : Except StorageCause Round := do
  let standings ← standings.mapM StandingRecord.toStanding
  let guesses ← guesses.mapM GuessRecord.toGuess
  let status ← readStage (RoundStatus.ofName record.status)
  return {
    room := record.room
    number := ofColumn record.number
    target := record.target
    maxAttempts := ofColumn record.maxAttempts
    status
    standings := .ofList standings
    guesses
    startedAt := record.startedAt
    finishedAt := record.finishedAt }

end WordDuel
