import WordDuel.Duel
import WordDuel.Failure
/-!
# WordDuel.Storage.Store

**What is asked of a store of duels**, and the store that keeps them whole in
memory.

A store is read and written as a value. A change to one room goes through a unit
of work: it is opened, may load the duel, and either commits a new one or is
dropped without a trace.
-/

namespace WordDuel

/-- One unit of work on one room. -/
structure UnitOfWork where
  /-- The room it works on. -/
  room : RoomId
  /-- Whether the room's row is locked while it is open. -/
  exclusive : Bool
  /-- What it has loaded last, if it has loaded at all. -/
  loaded : Option (Option Duel)

/-- A store of duels whose content is of type `σ`. -/
structure Store (σ : Type) where
  /-- Whether whoever uses it has it for himself, while others wait in line. -/
  inLine : Bool
  /-- Read the duel of a room. -/
  load : σ → RoomId → Result (Option Duel)
  /-- Read one round of a room. -/
  loadRound : σ → RoomId → Nat → Result (Option Round)
  /-- Store the duel of a new room. -/
  insert : σ → Duel → Result σ
  /-- Open a unit of work. -/
  openUnit : σ → RoomId → Bool → Result UnitOfWork
  /-- Read the duel of a unit's room within the unit. -/
  loadIn : σ → UnitOfWork → Result (Option Duel × UnitOfWork)
  /-- Store a duel as the new content of a unit's room and close the unit. -/
  commit : σ → UnitOfWork → Duel → Result σ

namespace Store

/-- A unit of work that has loaded nothing. -/
def freshUnit (room : RoomId) (exclusive : Bool) : UnitOfWork := ⟨room, exclusive, none⟩

/-- The content of the memory store: the duels by room. -/
abbrev Memory := SortedMap RoomId Duel

/-- The store that keeps duels whole. It never fails. -/
def memory : Store Memory where
  inLine := false
  load rooms room := .ok (rooms.get? room)
  loadRound rooms room number := .ok ((rooms.get? room).bind fun duel => duel.round? number)
  insert rooms duel := .ok (rooms.insert duel.id duel)
  openUnit _ room exclusive := .ok (freshUnit room exclusive)
  loadIn rooms u := .ok (rooms.get? u.room, { u with loaded := some (rooms.get? u.room) })
  commit rooms u duel := .ok (rooms.insert u.room duel)

/-! ### Stores that fail -/

/-- The calls of a store that a service makes. -/
inductive Call
  /-- Storing a new room. -/
  | insert
  /-- Reading outside a unit of work. -/
  | load
  /-- Opening a unit of work. -/
  | openUnit
  /-- Reading within a unit of work. -/
  | loadIn
  /-- Storing within a unit of work. -/
  | commit
  deriving DecidableEq

/-- A store some of whose calls fail, each with a cause of its own. A call that fails
leaves the content as it was. -/
def withFaults (store : Store σ) (fault : Call → Option StorageCause) : Store σ where
  inLine := store.inLine
  load s room := match fault .load with
    | some cause => .error (.storage cause)
    | none => store.load s room
  loadRound := store.loadRound
  insert s duel := match fault .insert with
    | some cause => .error (.storage cause)
    | none => store.insert s duel
  openUnit s room exclusive := match fault .openUnit with
    | some cause => .error (.storage cause)
    | none => store.openUnit s room exclusive
  loadIn s u := match fault .loadIn with
    | some cause => .error (.storage cause)
    | none => store.loadIn s u
  commit s u duel := match fault .commit with
    | some cause => .error (.storage cause)
    | none => store.commit s u duel

end Store

end WordDuel
