import WordDuel.Failure
import WordDuel.Lock.Key
/-!
# WordDuel.Lock.Errand

**What tasks do with locks.** A task may want a lock only to keep it. Or it has an
errand: it visits a room under the room's lock, perhaps visits further rooms from
inside, each under its own lock too, and comes to an end in the innermost one. The
locks are given back on the way out, however the errand ends.
-/

namespace WordDuel

/-- A stay in a room under its lock. -/
structure Visit where
  /-- What the visit is called. -/
  name : String
  room : RoomId
  /-- How long to wait for the lock, in milliseconds. -/
  timeout : Nat
  /-- How long the visitor rests before going on, in milliseconds. -/
  rest : Nat

/-- How an errand ends in the innermost room. -/
inductive Ending (α : Type)
  /-- With a value. -/
  | value (a : α)
  /-- With a failure. -/
  | failure (f : Failure)
  /-- By breaking down: nothing is answered, and all locks are dropped. -/
  | crash

/-- What a task wants. -/
inductive Aim (α : Type)
  /-- To keep a lock for which it waits so long. -/
  | keep (key : String) (timeout : Nat)
  /-- To go through a visit, then through further ones from inside, to an end. -/
  | errand (visit : Visit) (inner : List Visit) (ending : Ending α)

/-- How a task turned out. -/
inductive TaskResult (α : Type)
  /-- It keeps the lock of a key. -/
  | acquired (key : String)
  /-- It did not get the lock that it wanted to keep in time. -/
  | late
  /-- An errand came to this end, so many visits below the first one. -/
  | answered (depth : Nat) (result : Result α)
  /-- An errand broke down. -/
  | crashed

/-- What tasks do for others to see. -/
inductive TaskNote (α : Type)
  /-- A visit has begun. -/
  | entered (name : String)
  /-- A task in the background is over. -/
  | finished (name : String) (result : TaskResult α)

namespace Aim

variable {α : Type}

/-- The key of the lock that is wanted first. -/
def key : Aim α → String
  | .keep key _ => key
  | .errand visit _ _ => roomLockKey visit.room

/-- How long to wait for that lock, in milliseconds. -/
def timeout : Aim α → Nat
  | .keep _ timeout => timeout
  | .errand visit _ _ => visit.timeout

/-- The number of locks that are wanted. -/
def size : Aim α → Nat
  | .keep _ _ => 1
  | .errand _ inner _ => inner.length + 1

/-- How it turns out if the wait for the lock is too long, with so many locks in
hand already. -/
def late (depth : Nat) : Aim α → TaskResult α
  | .keep _ _ => .late
  | .errand visit _ _ => .answered depth (.error (.refused (.roomBusy visit.room)))

end Aim

/-- How an errand turns out that comes to its end so many visits below the first. -/
def Ending.result {α : Type} (depth : Nat) : Ending α → TaskResult α
  | .value a => .answered depth (.ok a)
  | .failure f => .answered depth (.error f)
  | .crash => .crashed

end WordDuel
