import WordDuel.Delivery.Sink
import WordDuel.Play.Course
import WordDuel.Storage.Store
/-!
# WordDuel.Service.Mutation

**Changing a room under its lock**: open a unit of work, load the duel, make the
move on a working copy, commit the copy, announce the events. A change goes
through these stages one step at a time; between any two of them others may act on
other rooms, and whoever asked for it may give it up.

Whatever fails before the commit leaves the stored duels as they were and announces
nothing; nothing fails after it.
-/

namespace WordDuel

/-- What changes share: the stored duels and the destination of events. -/
structure World (σ : Type) where
  /-- The content of the store. -/
  stored : σ
  /-- Where events go. -/
  sink : Sink

/-- A change to a room. -/
structure Mutation (σ : Type) where
  /-- The store in which the duel is. -/
  store : Store σ
  /-- Whether the room's row is locked meanwhile. -/
  exclusive : Bool
  room : RoomId
  /-- The move that is made. -/
  move : Move Unit

/-- How far a change has come. -/
inductive Stage
  /-- The lock is held; nothing has been done. -/
  | entered
  /-- A unit of work is open. -/
  | opened (u : UnitOfWork)
  /-- The duel is loaded. -/
  | loaded (u : UnitOfWork) (duel : Duel)
  /-- The move is made on a working copy. -/
  | judged (u : UnitOfWork) (duel : Duel) (events : List Event)
  /-- The new duel is stored; these events are still to be announced. -/
  | announcing (duel : Duel) (events : List Event)
  /-- All is done. -/
  | done (result : Result Duel)

namespace Mutation

variable {σ : Type} (m : Mutation σ)

/-! ### Step by step -/

/-- One step of a change. -/
def step (w : World σ) : Stage → World σ × Stage
  | .entered =>
    match m.store.openUnit w.stored m.room m.exclusive with
    | .ok u => (w, .opened u)
    | .error failure => (w, .done (.error failure))
  | .opened u =>
    match m.store.loadIn w.stored u with
    | .ok (some duel, u) => (w, .loaded u duel)
    | .ok (none, _) => (w, .done (.error (.refused (.roomNotFound m.room))))
    | .error failure => (w, .done (.error failure))
  | .loaded u duel =>
    match m.move.commit? duel with
    | .ok (_, duel, events) => (w, .judged u duel events)
    | .error failure => (w, .done (.error failure))
  | .judged u duel events =>
    match m.store.commit w.stored u duel with
    | .ok stored => ({ w with stored }, .announcing duel events)
    | .error failure => (w, .done (.error failure))
  | .announcing duel [] => (w, .done (.ok duel))
  | .announcing duel (event :: events) =>
    ({ w with sink := (w.sink.publish ⟨m.room, event⟩).1 }, .announcing duel events)
  | .done result => (w, .done result)

/-! ### To the end -/

/-- Announce the events that are left. -/
def announce (w : World σ) (duel : Duel) (events : List Event) : World σ × Result Duel :=
  ({ w with sink := w.sink.publishAll m.room events }, .ok duel)

/-- Commit, and go on to the end. -/
def commit (w : World σ) (u : UnitOfWork) (duel : Duel) (events : List Event) :
    World σ × Result Duel :=
  match m.store.commit w.stored u duel with
  | .ok stored => m.announce { w with stored } duel events
  | .error failure => (w, .error failure)

/-- Make the move, and go on to the end. -/
def judge (w : World σ) (u : UnitOfWork) (duel : Duel) : World σ × Result Duel :=
  match m.move.commit? duel with
  | .ok (_, duel, events) => m.commit w u duel events
  | .error failure => (w, .error failure)

/-- Load, and go on to the end. -/
def load (w : World σ) (u : UnitOfWork) : World σ × Result Duel :=
  match m.store.loadIn w.stored u with
  | .ok (some duel, u) => m.judge w u duel
  | .ok (none, _) => (w, .error (.refused (.roomNotFound m.room)))
  | .error failure => (w, .error failure)

/-- Go through all stages without being disturbed. -/
def run (w : World σ) : World σ × Result Duel :=
  match m.store.openUnit w.stored m.room m.exclusive with
  | .ok u => m.load w u
  | .error failure => (w, .error failure)

/-- Go from a stage to the end without being disturbed. -/
def resume (w : World σ) : Stage → World σ × Result Duel
  | .entered => m.run w
  | .opened u => m.load w u
  | .loaded u duel => m.judge w u duel
  | .judged u duel events => m.commit w u duel events
  | .announcing duel events => m.announce w duel events
  | .done result => (w, result)

/-- A step does not change what the end will be. -/
theorem resume_step (w : World σ) (stage : Stage) :
    m.resume (m.step w stage).1 (m.step w stage).2 = m.resume w stage := by
  match stage with
  | .entered =>
    cases h : m.store.openUnit w.stored m.room m.exclusive <;> simp [step, resume, run, h]
  | .opened u =>
    cases h : m.store.loadIn w.stored u with
    | error failure => simp [step, resume, load, h]
    | ok loaded =>
      obtain ⟨_ | duel, u'⟩ := loaded <;> simp [step, resume, load, h]
  | .loaded u duel =>
    cases h : m.move.commit? duel <;> simp [step, resume, judge, h]
  | .judged u duel events =>
    cases h : m.store.commit w.stored u duel <;> simp [step, resume, commit, h]
  | .announcing duel [] => rfl
  | .announcing duel (event :: events) => rfl
  | .done result => rfl

end Mutation

end WordDuel
