import WordDuel.Lock.Errand
import WordDuel.Lock.Table
/-!
# WordDuel.Lock.Timeline

**Tasks that share locks, under a clock that moves only when nothing can run.**
Tasks are served in the order in which they become ready. The task that is waited for
has another place: when the time has moved it is served first, and otherwise after all
others. The waiters of a lock are served first come, first served. A task that waits for
a lock, or rests, has a time at which it wakes up; a lock that is free by the time it is
served is not late.

The lock table changes by the acts of `LockTable` only.
-/

namespace WordDuel

/-- How the locks let their users down. -/
structure LockFaults where
  /-- What an attempt to acquire a lock reports instead. -/
  acquire : Option LockCause
  /-- What giving a lock back reports. The lock is free all the same. -/
  release : Option LockCause

/-- Locks without faults. -/
def LockFaults.none : LockFaults := ⟨.none, .none⟩

/-- What a task is doing. -/
inductive Phase
  /-- It is about to ask for a lock. -/
  | asking
  /-- It waits for a lock until a time. -/
  | waiting (user : LockUser) (deadline : Nat)
  /-- It has just obtained a lock. -/
  | inside
  /-- It rests until a time. -/
  | resting (deadline : Nat)

/-- The time at which a task wakes up by itself. -/
def Phase.deadline? : Phase → Option Nat
  | .waiting _ deadline | .resting deadline => some deadline
  | .asking | .inside => none

/-- A task. -/
structure Task (α : Type) where
  /-- What the task is called. -/
  name : String
  /-- Whether nobody waits for the task. -/
  background : Bool
  /-- The locks in its hands, the innermost first. -/
  held : List LockUser
  /-- What it still wants. -/
  aim : Aim α
  /-- What it is doing. -/
  phase : Phase

/-- Tasks and what they share. -/
structure Timeline (α : Type) where
  /-- The locks. -/
  table : LockTable
  /-- How the locks let their users down. -/
  faults : LockFaults
  /-- The time, in milliseconds. -/
  now : Nat
  /-- The number of users that locks have had so far. -/
  users : Nat
  /-- The number of tasks started so far. -/
  started : Nat
  /-- The tasks that are not over, in the order in which they last changed phase. -/
  tasks : List (Nat × Task α)
  /-- The tasks that can run, in order. -/
  ready : List Nat
  /-- The task that is waited for, if it can run once no other can. -/
  called : Option Nat
  /-- The locks that are kept by name. -/
  kept : List (String × LockUser)
  /-- The background tasks that can be asked for by name. -/
  known : List (String × Nat)
  /-- What has been noted, the latest first. -/
  notes : List (TaskNote α)
  /-- How the task turned out that is waited for. -/
  answer : Option (TaskResult α)

namespace Timeline

variable {α : Type}

/-- A timeline without tasks at time zero. -/
def start (faults : LockFaults) : Timeline α :=
  { table := .empty, faults, now := 0, users := 0, started := 0, tasks := [], ready := []
    called := none, kept := [], known := [], notes := [], answer := none }

/-! ### Giving locks back -/

/-- The task that waits for a lock as this user. -/
def taskOf? (t : Timeline α) (user : LockUser) : Option (Nat × Task α) :=
  t.tasks.find? fun p =>
    match p.2.phase with
    | .waiting u _ => u == user
    | _ => false

/-- Let the first waiter of a mutex run. -/
def wakeNext (t : Timeline α) (mutex : MutexId) : Timeline α :=
  match (t.table.firstWaiter? mutex).bind t.taskOf? with
  | some (n, task) =>
    if task.background then { t with ready := t.ready ++ [n] } else { t with called := some n }
  | none => t

/-- Give a lock back; its first waiter can run. -/
def release (t : Timeline α) (user : LockUser) : Timeline α :=
  match (t.table.use? user).bind LockUse.held?, t.table.leave? user with
  | some mutex, some table => { t with table }.wakeNext mutex
  | _, _ => t

/-- Give locks back one after the other. -/
def releaseAll (t : Timeline α) (users : List LockUser) : Timeline α := users.foldl release t

/-- Keep a lock under a name; a lock that was kept under it is given back. -/
def keep (t : Timeline α) (name : String) (user : LockUser) : Timeline α :=
  let kept := (name, user) :: t.kept.filter fun p => p.1 ≠ name
  match t.kept.lookup name with
  | some old => { t with kept }.release old
  | none => { t with kept }

/-! ### Tasks -/

/-- Forget a task. -/
def dropTask (t : Timeline α) (n : Nat) : Timeline α :=
  { t with tasks := t.tasks.filter fun p => p.1 ≠ n }

/-- Let a task be in another state, as the one that changed last. -/
def putTask (t : Timeline α) (n : Nat) (task : Task α) : Timeline α :=
  { t.dropTask n with tasks := (t.dropTask n).tasks ++ [(n, task)] }

/-- Let a task be in another state, and go on with it at once. -/
def goOn (t : Timeline α) (n : Nat) (task : Task α) : Timeline α :=
  { t.putTask n task with ready := n :: t.ready }

/-- A task is over; it gives its locks back. -/
def finish (t : Timeline α) (n : Nat) (task : Task α) (result : TaskResult α) : Timeline α :=
  -- The locks go back first, so that nobody who hears of the end finds them taken.
  let t := (t.dropTask n).releaseAll task.held
  if task.background then { t with notes := .finished task.name result :: t.notes }
  else { t with answer := some result }

/-- Ask for a lock. -/
def ask (t : Timeline α) (n : Nat) (task : Task α) : Timeline α :=
  match t.faults.acquire with
  | some cause => t.finish n task (.answered task.held.length (.error (.lock cause)))
  | none =>
    match t.table.arrive? t.users task.aim.key with
    | some table =>
      { t with table, users := t.users + 1 }.goOn n
        { task with phase := .waiting t.users (t.now + task.aim.timeout) }
    | none => t

/-- Look whether a lock can be had. -/
def wait (t : Timeline α) (n : Nat) (task : Task α) (user : LockUser) (deadline : Nat) :
    Timeline α :=
  -- A free lock is taken even when the time is up.
  match if t.table.isNext user then t.table.obtain? user else none with
  | some table =>
    { t with table }.goOn n { task with held := user :: task.held, phase := .inside }
  | none =>
    if t.now < deadline then t
    else { t with table := (t.table.leave? user).getD t.table }.finish n task
      (task.aim.late task.held.length)

/-- Do what the lock was wanted for. -/
def enter (t : Timeline α) (n : Nat) (task : Task α) : Timeline α :=
  match task.aim, task.held with
  | .keep key _, user :: held =>
    (t.keep task.name user).finish n { task with held } (.acquired key)
  | .keep _ _, [] => t
  | .errand visit _ _, _ =>
    { t with notes := .entered visit.name :: t.notes }.goOn n
      { task with phase := .resting (t.now + visit.rest) }

/-- Go on to the next visit or to the end. -/
def moveOn (t : Timeline α) (n : Nat) (task : Task α) : Timeline α :=
  match task.aim with
  | .errand _ (visit :: inner) ending =>
    t.goOn n { task with aim := .errand visit inner ending, phase := .asking }
  | .errand _ [] ending => t.finish n task (ending.result (task.held.length - 1))
  | .keep _ _ => t

/-- One step of a task. -/
def step (t : Timeline α) (n : Nat) : Timeline α :=
  match t.tasks.lookup n with
  | none => t
  | some task =>
    match task.phase with
    | .asking => t.ask n task
    | .waiting user deadline => t.wait n task user deadline
    | .inside => t.enter n task
    | .resting deadline => if t.now < deadline then t else t.moveOn n task

/-- A bound on the steps that tasks can take without an order from outside: each lock
takes four, and each lock that is given back may wake another task. -/
def work (t : Timeline α) : Nat :=
  t.ready.length + t.called.toList.length + t.kept.length +
    t.tasks.foldl (fun n p => n + 8 * (p.2.aim.size + p.2.held.length)) 0

/-- Let tasks run, in at most so many steps. -/
def runFor : (fuel : Nat) → Timeline α → Timeline α
  | 0, t => t
  | fuel + 1, t =>
    match t.ready, t.called with
    | n :: ready, _ => runFor fuel ({ t with ready }.step n)
    | [], some n => runFor fuel ({ t with called := none }.step n)
    | [], none => t

/-- Let everything run that can. -/
def run (t : Timeline α) : Timeline α := runFor t.work t

/-! ### Time -/

/-- The tasks that wake up by themselves, each with its time, in order of time. -/
def alarms (t : Timeline α) : List (Nat × Nat × Task α) :=
  (t.tasks.filterMap fun p => p.2.phase.deadline?.map (·, p)).mergeSort fun a b => a.1 ≤ b.1

/-- Let a time come, wake up whom it concerns, and let everything run. -/
def moveTo (t : Timeline α) (time : Nat) : Timeline α :=
  let due := (t.alarms.takeWhile fun a => a.1 ≤ time).map Prod.snd
  let (behind, ahead) := due.partition fun p => p.2.background
  { t with now := time, ready := t.ready ++ (ahead ++ behind).map Prod.fst }.run

/-- Let time pass in one leap. Whoever was due on the way wakes up at the end of it, in
the order in which it was due. -/
def advance (t : Timeline α) (ms : Nat) : Timeline α := t.moveTo (t.now + ms)

/-- Let time pass from one alarm to the next until the task is over that is waited
for, over at most so many alarms. -/
def awaitFor : (fuel : Nat) → Timeline α → Timeline α
  | 0, t => t
  | fuel + 1, t =>
    match t.answer, t.alarms with
    | none, (time, _) :: _ => awaitFor fuel (t.moveTo time)
    | _, _ => t

/-! ### Orders -/

/-- Start a task. -/
def launch (t : Timeline α) (background : Bool) (name : String) (aim : Aim α) : Timeline α :=
  let task : Task α := ⟨name, background, [], aim, .asking⟩
  { t with
    started := t.started + 1
    tasks := t.tasks ++ [(t.started, task)]
    ready := t.ready ++ [t.started] }.run

/-- Start a task, and wait until it is over. -/
def perform (t : Timeline α) (name : String) (aim : Aim α) : Timeline α × Option (TaskResult α) :=
  let t := { t with answer := none }.launch false name aim
  let t := awaitFor t.work t
  ({ t with answer := none }, t.answer)

/-- Start a task in the background. -/
def spawn (t : Timeline α) (name : String) (aim : Aim α) : Timeline α :=
  { t with known := (name, t.started) :: t.known.filter fun p => p.1 ≠ name }.launch true name aim

/-- Drop a kept lock, unless there is none of this name. -/
def discard? (t : Timeline α) (name : String) : Option (Timeline α) :=
  (t.kept.lookup name).map fun user =>
    ({ t with kept := t.kept.filter fun p => p.1 ≠ name }.release user).run

/-- What comes of calling a background task off. -/
inductive Cancelled
  /-- It is called off. -/
  | cancelled
  /-- It is over. -/
  | alreadyDone
  /-- There is no such task. -/
  | unknown

/-- A task is gone wherever it is: it stops waiting, and drops its locks. -/
def abandon (t : Timeline α) (n : Nat) (task : Task α) : Timeline α :=
  let t := t.dropTask n
  let t :=
    match task.phase with
    | .waiting user _ =>
      match (t.table.use? user).bind LockUse.awaited?, t.table.vanish? user with
      | some mutex, some table =>
        let t := { t with table }
        -- The mutex may have been free for this task alone: the next waiter gets it.
        if table.isFree mutex then t.wakeNext mutex else t
      | _, _ => t
    | _ => t
  (t.releaseAll task.held).run

/-- Call a background task off. It cannot be asked for again. -/
def cancel (t : Timeline α) (name : String) : Timeline α × Cancelled :=
  match t.known.lookup name with
  | none => (t, .unknown)
  | some n =>
    let t := { t with known := t.known.filter fun p => p.1 ≠ name }
    match t.tasks.lookup n with
    | none => (t, .alreadyDone)
    | some task => (t.abandon n task, .cancelled)

/-- What has been noted, in order; it is noted no longer. -/
def takeNotes (t : Timeline α) : List (TaskNote α) × Timeline α :=
  (t.notes.reverse, { t with notes := [] })

end Timeline

end WordDuel
