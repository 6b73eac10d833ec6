import WordDuel.Service.Mutation
import WordDuel.Storage.Tables
/-!
# WordDuel.Service.Request

**What can be asked of the service**, and its answers. Changes to a room are made
under the room's lock; looking at a room is not, and a room is created without a
lock, since nobody else can know its id.
-/

namespace WordDuel

/-- What can be asked. A new room's id is part of the request. -/
inductive Request
  /-- Create a room in the language of a code. -/
  | create (room : RoomId) (code : String) (player : PlayerId)
  /-- Look at a room. -/
  | get (room : RoomId) (player : PlayerId)
  /-- Change a room. -/
  | change (room : RoomId) (change : Change)

/-- What is answered. -/
inductive Reply
  /-- The room as the player sees it. -/
  | view (v : RoomView)
  /-- There is nothing to tell. -/
  | done
  deriving DecidableEq

/-- What comes of asking for the lock of a room. -/
inductive Grant
  /-- The lock is obtained. -/
  | granted
  /-- Somebody else keeps it for longer than one waits. -/
  | late
  /-- The locks do not work. -/
  | failed (cause : LockCause)
  deriving DecidableEq

/-- The answer to a change that led to a duel. -/
def Change.reply (duel : Duel) : Change → Reply
  | .join player | .guess player _ | .startRound player => .view (duel.viewFor player)
  | .close => .done

/-- The room that a request is about. -/
def Request.room : Request → RoomId
  | .create room _ _ | .get room _ | .change room _ => room

/-- A service on a store. -/
structure Service (σ : Type) where
  /-- The store in which the duels are. -/
  store : Store σ
  /-- Whether a room's row is locked while the room is changed. -/
  exclusive : Bool

/-- A service that keeps duels whole in memory. -/
def Service.inMemory (exclusive : Bool) : Service Store.Memory := ⟨.memory, exclusive⟩

/-- A service that keeps duels in tables. -/
def Service.inTables (exclusive : Bool) : Service Tables := ⟨.tables, exclusive⟩

namespace Service

variable {σ : Type} (service : Service σ)

/-- A change to a room as this service makes it. -/
def mutation (room : RoomId) (move : Move Unit) : Mutation σ :=
  ⟨service.store, service.exclusive, room, move⟩

/-- Store a new room, whose events are still to be announced. -/
def establish (referee : Referee) (w : World σ) (room : RoomId) (code : String)
    (player : PlayerId) : Result (World σ × Duel × List Event) :=
  match Language.ofCode? code with
  | none => .error (.refused .invalidLanguage)
  | some language =>
    let (duel, events) := referee.createRoom room language player
    match service.store.insert w.stored duel with
    | .error failure => .error failure
    | .ok stored => .ok ({ w with stored }, duel, events)

/-- Create a room. -/
def create (referee : Referee) (w : World σ) (room : RoomId) (code : String)
    (player : PlayerId) : World σ × Result Duel :=
  match service.establish referee w room code player with
  | .error failure => (w, .error failure)
  | .ok (w, duel, events) => ({ w with sink := w.sink.publishAll room events }, .ok duel)

/-- Look at a room. A stranger may look only while there is a place left. -/
def get (w : World σ) (room : RoomId) (player : PlayerId) : Result Duel :=
  match service.store.load w.stored room with
  | .error failure => .error failure
  | .ok none => .error (.refused (.roomNotFound room))
  | .ok (some duel) =>
    -- Looking is how one finds out whether there is a place left.
    if !duel.room.isMember player && duel.room.isFull then
      .error (.refused (.roomAccessDenied room))
    else .ok duel

/-- What is told to whoever looks at a stored room. -/
theorem get_of_stored {exclusive : Bool} {w : World Store.Memory} {room : RoomId} {duel : Duel}
    (h : w.stored.get? room = some duel) (player : PlayerId) :
    (inMemory exclusive).get w room player =
      if !duel.room.isMember player && duel.room.isFull then
        .error (.refused (.roomAccessDenied room))
      else .ok duel := by
  have hload : Store.memory.load w.stored room = .ok (some duel) := by simp [Store.memory, h]
  rw [get]
  simp only [inMemory, hload]

/-- Change a room under its lock. Whatever comes of giving the lock back, the change is
made by then, so that it has no part in the result. -/
def change (w : World σ) (grant : Grant) (room : RoomId) (move : Move Unit) :
    World σ × Result Duel :=
  match grant with
  | .granted => (service.mutation room move).run w
  | .late => (w, .error (.refused (.roomBusy room)))
  | .failed cause => (w, .error (.lock cause))

/-- Answer a request while nobody else asks for anything. -/
def perform (referee : Referee) (grant : RoomId → Grant) (w : World σ) :
    Request → World σ × Result Reply
  | .create room code player =>
    let (w, result) := service.create referee w room code player
    (w, result.map fun duel => .view (duel.viewFor player))
  | .get room player =>
    (w, (service.get w room player).map fun duel => .view (duel.viewFor player))
  | .change room c =>
    let (w, result) := service.change w (grant room) room (c.move referee)
    (w, result.map c.reply)

end Service

end WordDuel
