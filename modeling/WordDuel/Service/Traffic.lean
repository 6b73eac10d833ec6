import WordDuel.Lock.Key
import WordDuel.Lock.Table
import WordDuel.Service.Request
/-!
# WordDuel.Service.Traffic

**Many calls at once.** Any number of clients call a service whose locks are those of one
process. Each call goes its way step by step, and between two steps of one call any others
may take steps of theirs. A change arrives at the lock of its room and waits; it gets the
lock or waits too long for it; with the lock it goes through the stages of a mutation, and
last it lets go of the lock and prunes the table. A room is created without a lock, and
whoever looks at it reads it without a lock and is answered later.

`Traffic.act?` performs any step, in whatever order they come, and refuses those that are
not possible. A room can be asked for only once its creation has been answered: nobody
knows the id before.
-/

namespace WordDuel

/-! ### Calls -/

/-- How far a call has come. -/
inductive CallPhase
  /-- It has been made. -/
  | called
  /-- A new room is stored; these events are still to be announced. -/
  | announcing (duel : Duel) (events : List Event)
  /-- It has read its room and is to be answered. -/
  | looked (result : Result Reply)
  /-- It waits for the lock of its room. -/
  | waiting
  /-- It has the lock of its room, which is being changed. -/
  | working (stage : Stage)
  /-- It has let go of the lock and has yet to prune the table. -/
  | leaving (result : Result Reply)
  /-- It has been answered. -/
  | answered (result : Result Reply)

/-- A call of the service. -/
structure Call where
  /-- What is asked. -/
  request : Request
  /-- Who judges it. -/
  referee : Referee
  /-- How far it has come. -/
  phase : CallPhase

/-- Whether a call has created a room, and its client knows. -/
def Call.opens (call : Call) (room : RoomId) : Bool :=
  match call.request, call.phase with
  | .create created _ _, .answered (.ok _) => created == room
  | _, _ => false

/-- The use that a call has made of the lock of a room, which it got. -/
structure Turn where
  call : Nat
  room : RoomId
  /-- What is attempted. -/
  ply : Ply

/-- All calls of a service, and what they share. -/
structure Traffic (σ : Type) where
  /-- The locks. A call is known to them by its place among the calls. -/
  table : LockTable
  /-- The stored duels and the destination of events. -/
  world : World σ
  /-- The calls in the order in which they were made. -/
  calls : List Call
  /-- The turns in the order in which the locks were obtained. -/
  turns : List Turn

/-- What comes of a step of a call. -/
structure CallStep (σ : Type) where
  /-- The locks. -/
  table : LockTable
  /-- The stored duels and the destination of events. -/
  world : World σ
  /-- The turn that begins with the step, if any. -/
  turn? : Option Turn
  /-- How far the call has come. -/
  phase : CallPhase

/-- What happens next. -/
inductive TrafficAct
  /-- Somebody calls. -/
  | call (request : Request) (referee : Referee)
  /-- A call goes on. -/
  | proceed (i : Nat)
  /-- A call has waited for too long. -/
  | giveUp (i : Nat)

/-- The call that takes a step, if it has been made before. -/
def TrafficAct.caller? : TrafficAct → Option Nat
  | .call _ _ => none
  | .proceed i | .giveUp i => some i

namespace Traffic

variable {σ : Type}

/-- Nobody has called yet. -/
def start (world : World σ) : Traffic σ := ⟨.empty, world, [], []⟩

variable (service : Service σ) (t : Traffic σ)

/-! ### The steps of a call -/

/-- A call comes further, and nothing else changes. -/
def onward (phase : CallPhase) : CallStep σ := ⟨t.table, t.world, none, phase⟩

/-- The next step of creating a room. -/
def create? (referee : Referee) (room : RoomId) (code : String) (player : PlayerId) :
    CallPhase → Option (CallStep σ)
  | .called =>
    match service.establish referee t.world room code player with
    | .error failure => some (t.onward (.answered (.error failure)))
    | .ok (world, duel, events) => some { t.onward (.announcing duel events) with world }
  | .announcing duel [] => some (t.onward (.answered (.ok (.view (duel.viewFor player)))))
  | .announcing duel (event :: events) =>
    let world := { t.world with sink := (t.world.sink.publish ⟨room, event⟩).1 }
    some { t.onward (.announcing duel events) with world }
  | _ => none

/-- The next step of looking at a room. -/
def get? (room : RoomId) (player : PlayerId) : CallPhase → Option (CallStep σ)
  | .called =>
    let result := service.get t.world room player
    some (t.onward (.looked (result.map fun duel => .view (duel.viewFor player))))
  | .looked result => some (t.onward (.answered result))
  | _ => none

/-- The next step of a change to a room. -/
def change? (i : Nat) (referee : Referee) (room : RoomId) (change : Change) :
    CallPhase → Option (CallStep σ)
  | .called =>
    (t.table.arrive? i (roomLockKey room)).map fun table => { t.onward .waiting with table }
  | .waiting =>
    (t.table.obtain? i).map fun table =>
      ⟨table, t.world, some ⟨i, room, referee, change⟩, .working .entered⟩
  | .working (.done result) =>
    (t.table.letGo? i).map fun table =>
      { t.onward (.leaving (result.map change.reply)) with table }
  | .working stage =>
    let (world, stage) := (service.mutation room (change.move referee)).step t.world stage
    some { t.onward (.working stage) with world }
  | .leaving result =>
    (t.table.prune? i).map fun table => { t.onward (.answered result) with table }
  | _ => none

/-- The next step of a call, if it can take one. -/
def next? (i : Nat) (call : Call) : Option (CallStep σ) :=
  match call.request with
  | .create room code player => t.create? service call.referee room code player call.phase
  | .get room player => t.get? service room player call.phase
  | .change room change => t.change? service i call.referee room change call.phase

/-- A call that has waited for too long does not get the lock. -/
def giveUp? (i : Nat) (call : Call) : Option (CallStep σ) :=
  match call.phase with
  | .waiting =>
    (t.table.letGo? i).map fun table =>
      { t.onward (.leaving (.error (.refused (.roomBusy call.request.room)))) with table }
  | _ => none

/-! ### Whoever is next -/

/-- A step of a call is taken. -/
def take (i : Nat) (step : CallStep σ) : Traffic σ where
  table := step.table
  world := step.world
  calls := t.calls.modify i fun call => { call with phase := step.phase }
  turns := t.turns ++ step.turn?.toList

/-- Whether a request can be made: a room gets an id that is not in use, and can be asked
for once it has been created. -/
def admits : Request → Bool
  | .create room _ _ => t.calls.all fun call => call.request.room ≠ room
  | .get room _ | .change room _ => t.calls.any fun call => call.opens room

/-- Do what happens next, if it can happen. -/
def act? : TrafficAct → Option (Traffic σ)
  | .call request referee =>
    if t.admits request then some { t with calls := t.calls ++ [⟨request, referee, .called⟩] }
    else none
  | .proceed i => (t.calls[i]?.bind (t.next? service i)).map (t.take i)
  | .giveUp i => (t.calls[i]?.bind (t.giveUp? i)).map (t.take i)

/-- Do one thing after the other. -/
def run? (acts : List TrafficAct) : Option (Traffic σ) := acts.foldlM (act? service) t

/-! ### Looking back -/

/-- The turns that were taken in a room, in order. -/
def turnsIn (room : RoomId) : List Turn := t.turns.filter fun turn => turn.room == room

/-- The answer to a call, if there is one yet. -/
def answer? (i : Nat) : Option (Result Reply) :=
  t.calls[i]?.bind fun call =>
    match call.phase with
    | .answered result => some result
    | _ => none

end Traffic

end WordDuel
