import WordDuel.Storage.Rows
import WordDuel.Storage.Store
/-!
# WordDuel.Storage.Tables

**The store that keeps duels in tables.** A duel is spread over five tables. Writing
one touches only the rows in which it differs from what was loaded, and guesses are
only ever added. A roster and a round belong to a room, standings and guesses to a
round. A statement that would break a primary key, or leave a row without what it
belongs to, makes the whole write fail.

Reading orders a roster by position, rounds by number and guesses by round and
sequence; rows that agree in these come in the order of their primary keys. All that is
asked for is read before anything is made out of it.
-/

namespace WordDuel

/-- The content of the tables. -/
structure Tables where
  rooms : List RoomRow
  /-- The players on the rosters. -/
  roster : List RosterRow
  rounds : List RoundRow
  /-- How the players of the rounds stand. -/
  standings : List StandingRow
  guesses : List GuessRow
  deriving DecidableEq

namespace Tables

/-- Tables without rows. -/
def empty : Tables := ⟨[], [], [], [], []⟩

/-! ### Keys -/

/-- The primary key of a row of a roster. -/
def rosterKey (r : RosterRow) : Held RoomId × Held PlayerId := (r.room, r.player)

/-- The primary key of a round. -/
def roundKey (r : RoundRow) : Held RoomId × Held Int := (r.room, r.number)

/-- The primary key of a standing. -/
def standingKey (r : StandingRow) : Held RoomId × Held Int × Held PlayerId :=
  (r.room, r.round, r.player)

/-- The primary key of a guess. -/
def guessKey (r : GuessRow) : Held RoomId × Held Int × Held PlayerId × Held Int :=
  (r.room, r.round, r.player, r.attempt)

/-- Add a row with a key of its own. -/
def addRow [DecidableEq κ] (key : α → κ) (rows : List α) (row : α) : Option (List α) :=
  if key row ∈ rows.map key then none else some (rows ++ [row])

/-- Add rows with keys of their own. -/
def addRows [DecidableEq κ] (key : α → κ) (rows new : List α) : Option (List α) :=
  new.foldlM (addRow key) rows

/-- Whether there is a row for a room. -/
def hasRoom (t : Tables) (room : Held RoomId) : Bool := t.rooms.any fun r => r.id == room

/-- Whether there is a row for a round. -/
def hasRound (t : Tables) (room : Held RoomId) (number : Held Int) : Bool :=
  t.rounds.any fun r => r.room == room && r.number == number

/-- Tables whose keys are in order: no two rows share a primary key, and every row has
what it belongs to. -/
structure Sound (t : Tables) : Prop where
  /-- Rooms have keys of their own. -/
  rooms_nodup : (t.rooms.map RoomRow.id).Nodup
  /-- Rows of rosters have keys of their own. -/
  roster_nodup : (t.roster.map rosterKey).Nodup
  /-- Rounds have keys of their own. -/
  rounds_nodup : (t.rounds.map roundKey).Nodup
  /-- Standings have keys of their own. -/
  standings_nodup : (t.standings.map standingKey).Nodup
  /-- Guesses have keys of their own. -/
  guesses_nodup : (t.guesses.map guessKey).Nodup
  /-- A roster belongs to a room. -/
  roster_room : ∀ r ∈ t.roster, t.hasRoom r.room
  /-- A round belongs to a room. -/
  rounds_room : ∀ r ∈ t.rounds, t.hasRoom r.room
  /-- Standings belong to a round. -/
  standings_round : ∀ r ∈ t.standings, t.hasRound r.room r.round
  /-- Guesses belong to a round. -/
  guesses_round : ∀ r ∈ t.guesses, t.hasRound r.room r.round

instance (t : Tables) : Decidable t.Sound :=
  decidable_of_iff
    ((t.rooms.map RoomRow.id).Nodup ∧ (t.roster.map rosterKey).Nodup ∧
      (t.rounds.map roundKey).Nodup ∧ (t.standings.map standingKey).Nodup ∧
      (t.guesses.map guessKey).Nodup ∧ (∀ r ∈ t.roster, t.hasRoom r.room) ∧
      (∀ r ∈ t.rounds, t.hasRoom r.room) ∧ (∀ r ∈ t.standings, t.hasRound r.room r.round) ∧
      ∀ r ∈ t.guesses, t.hasRound r.room r.round)
    ⟨fun ⟨a, b, c, d, e, f, g, h, i⟩ => ⟨a, b, c, d, e, f, g, h, i⟩,
      fun ⟨a, b, c, d, e, f, g, h, i⟩ => ⟨a, b, c, d, e, f, g, h, i⟩⟩

theorem sound_empty : Sound empty := by decide

/-! ### Statements

Each gives the tables after it, or nothing if it is refused. -/

/-- Add a room. -/
def insertRoom (t : Tables) (row : RoomRow) : Option Tables := do
  let rooms ← addRow RoomRow.id t.rooms row
  return { t with rooms }

/-- Replace the row of a room, if there is one. -/
def updateRoom (t : Tables) (row : RoomRow) : Tables :=
  { t with rooms := t.rooms.map fun r => if r.id = row.id then row else r }

/-- Replace the roster of a room. -/
def replaceRoster (t : Tables) (room : RoomId) (new : List RosterRow) : Option Tables :=
  if new.all fun r => t.hasRoom r.room then do
    let roster ← addRows rosterKey (t.roster.filter fun r => r.room ≠ .value room) new
    return { t with roster }
  else none

/-- Add a round. -/
def insertRound (t : Tables) (row : RoundRow) : Option Tables :=
  if t.hasRoom row.room then do
    let rounds ← addRow roundKey t.rounds row
    return { t with rounds }
  else none

/-- Replace the row of a round of a room, if there is one. The new row may name another
room, if the keys allow the round to go there. -/
def updateRound (t : Tables) (room : RoomId) (row : RoundRow) : Option Tables :=
  let updated : Tables :=
    { t with
      rounds := t.rounds.map fun r =>
        if r.room = .value room ∧ r.number = row.number then row else r }
  -- A round that stays where it is keeps its key, so that nothing can break.
  if row.room = .value room ∨ updated.Sound then some updated else none

/-- Replace the standings of a round of a room. -/
def replaceStandings (t : Tables) (room : RoomId) (number : Int) (new : List StandingRow) :
    Option Tables :=
  if new.all fun r => t.hasRound r.room r.round then do
    let standings ← addRows standingKey
      (t.standings.filter fun r => ¬(r.room = .value room ∧ r.round = .value number)) new
    return { t with standings }
  else none

/-- Add guesses. -/
def insertGuesses (t : Tables) (new : List GuessRow) : Option Tables :=
  if new.all fun r => t.hasRound r.room r.round then do
    let guesses ← addRows guessKey t.guesses new
    return { t with guesses }
  else none

/-! ### Writing a duel -/

/-- Write the room. -/
def writeRoom (t : Tables) (before : Option Duel) (duel : Duel) : Option Tables :=
  if before.isSome then some (t.updateRoom (.ofRecord (.ofRoom duel.room)))
  else t.insertRoom (.ofRecord (.ofRoom duel.room))

/-- Write the roster, if it or the points have changed. -/
def writeRoster (t : Tables) (before : Option Duel) (duel : Duel) : Option Tables :=
  if before.all fun b => b.room.players ≠ duel.room.players ∨ b.room.scores ≠ duel.room.scores then
    t.replaceRoster duel.id ((RosterRecord.ofRoom duel.room).map .ofRecord)
  else some t

/-- Write the row of a round, if it is new or has ended, or began anew. -/
def writeRoundRow (t : Tables) (room : RoomId) (before : Option Round) (round : Round) :
    Option Tables :=
  match before with
  | none => t.insertRound (.ofRecord (.ofRound round))
  | some b =>
    if b.status ≠ round.status ∨ b.finishedAt ≠ round.finishedAt then
      t.updateRound room (.ofRecord (.ofRound round))
    else some t

/-- Write the standings of a round, if they have changed. -/
def writeStandings (t : Tables) (room : RoomId) (before : Option Round) (round : Round) :
    Option Tables :=
  if before.all fun b => b.standings ≠ round.standings then
    t.replaceStandings room (toColumn round.number)
      ((StandingRecord.ofRound room round).map .ofRecord)
  else some t

/-- Write a round, if it has changed at all. -/
def writeRound (room : RoomId) (before : Option Duel) (t : Tables) (round : Round) :
    Option Tables := do
  let b := before.bind fun duel => duel.round? round.number
  if b = some round then return t
  let t ← t.writeRoundRow room b round
  let t ← t.writeStandings room b round
  -- Guesses are never changed, so those that were loaded are stored already.
  t.insertGuesses
    ((GuessRecord.ofRound room round (b.elim 0 fun b => b.guesses.length)).map .ofRecord)

/-- Write a duel over what was loaded before, if anything was. -/
def write? (t : Tables) (before : Option Duel) (duel : Duel) : Option Tables := do
  let t ← t.writeRoom before duel
  let t ← t.writeRoster before duel
  duel.rounds.foldlM (writeRound duel.id before) t

/-- Write a duel; a statement that is refused leaves the tables as they were. -/
def write (t : Tables) (before : Option Duel) (duel : Duel) : Result Tables :=
  match t.write? before duel with
  | some t => .ok t
  | none => .error (.storage (.refused duel.id []))

/-! ### Reading a duel -/

/-- The order of a roster. -/
def rosterOrder : RosterRow → RosterRow → Ordering :=
  compareLex (fun a b => Held.numberOrder a.position b.position)
    (fun a b => Held.idOrder a.player b.player)

/-- The order of rounds. -/
def roundOrder (a b : RoundRow) : Ordering := Held.numberOrder a.number b.number

/-- The order of standings. -/
def standingOrder : StandingRow → StandingRow → Ordering :=
  compareLex (fun a b => Held.numberOrder a.round b.round)
    (fun a b => Held.idOrder a.player b.player)

/-- The order of guesses. -/
def guessOrder : GuessRow → GuessRow → Ordering :=
  compareLex (fun a b => Held.numberOrder a.round b.round)
    (compareLex (fun a b => Held.numberOrder a.sequence b.sequence)
      (compareLex (fun a b => Held.idOrder a.player b.player)
        (fun a b => Held.numberOrder a.attempt b.attempt)))

/-- The rows that are asked for, in order. -/
def select (order : α → α → Ordering) (wanted : α → Bool) (rows : List α) : List α :=
  (rows.filter wanted).mergeSort fun a b => (order a b).isLE

/-- All that is recorded of a room, in order. -/
structure RoomRecords where
  room : RoomRecord
  roster : List RosterRecord
  rounds : List RoundRecord
  /-- The standings of all rounds. -/
  standings : List StandingRecord
  /-- The guesses of all rounds. -/
  guesses : List GuessRecord

/-- Read all that is recorded of the room of a row. -/
def readRoom (t : Tables) (row : RoomRow) : Except DatabaseError RoomRecords := do
  let room ← row.read
  let roster ← (select rosterOrder (·.room = row.id) t.roster).mapM RosterRow.read
  let rounds ← (select roundOrder (·.room = row.id) t.rounds).mapM RoundRow.read
  let standings ← (select standingOrder (·.room = row.id) t.standings).mapM StandingRow.read
  let guesses ← (select guessOrder (·.room = row.id) t.guesses).mapM GuessRow.read
  return { room, roster, rounds, standings, guesses }

/-- Make out a round among the records of its room. -/
def RoomRecords.toRound (records : RoomRecords) (round : RoundRecord) :
    Except StorageCause Round :=
  round.toRound (records.standings.filter fun r => r.round = round.number)
    (records.guesses.filter fun r => r.round = round.number)

/-- Make out a duel. -/
def RoomRecords.toDuel (records : RoomRecords) : Except StorageCause Duel := do
  let room ← records.room.toRoom records.roster
  let rounds ← records.rounds.mapM records.toRound
  return ⟨room, rounds⟩

/-- Work on with what was read for a room, if it could be read. -/
def withRead (room : RoomId) (r : Except DatabaseError α) (f : α → Except StorageCause β) :
    Result β :=
  match r with
  | .ok a => (f a).mapError .storage
  | .error e => .error (e.toBriefFailure room)

/-- Read the duel of a room, if there is one. -/
def load (t : Tables) (room : RoomId) : Result (Option Duel) :=
  match t.rooms.find? fun r => r.id == .value room with
  | none => .ok none
  | some row => withRead room (t.readRoom row) fun records => records.toDuel.map some

/-- Read what is recorded of the round of a row. -/
def readRound (t : Tables) (row : RoundRow) :
    Except DatabaseError (RoundRecord × List StandingRecord × List GuessRecord) := do
  let round ← row.read
  let standings ← (select standingOrder (fun r => r.room = row.room ∧ r.round = row.number)
    t.standings).mapM StandingRow.read
  let guesses ← (select guessOrder (fun r => r.room = row.room ∧ r.round = row.number)
    t.guesses).mapM GuessRow.read
  return (round, standings, guesses)

/-- Read one round of a room, if there is one, without reading the room. -/
def loadRound (t : Tables) (room : RoomId) (number : Nat) : Result (Option Round) :=
  match t.rounds.find? fun r => r.room == .value room && r.number == .value (toColumn number) with
  | none => .ok none
  | some row =>
    withRead room (t.readRound row) fun (round, standings, guesses) =>
      (round.toRound standings guesses).map some

/-! ### The store -/

/-- Store a duel within a unit of work, over what the unit has loaded; a unit that
has loaded nothing loads first. -/
def commit (t : Tables) (u : UnitOfWork) (duel : Duel) : Result Tables :=
  match u.loaded with
  | some before => t.write before duel
  | none =>
    match t.load u.room with
    | .ok before => t.write before duel
    | .error failure => .error failure

end Tables

/-- The store that keeps duels in tables. -/
def Store.tables : Store Tables where
  inLine := true
  load := Tables.load
  loadRound := Tables.loadRound
  insert t duel := t.write none duel
  openUnit _ room exclusive := .ok (freshUnit room exclusive)
  loadIn t u :=
    match t.load u.room with
    | .ok duel => .ok (duel, { u with loaded := some duel })
    | .error failure => .error failure
  commit := Tables.commit

end WordDuel
