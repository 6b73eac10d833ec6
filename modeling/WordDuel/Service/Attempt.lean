import WordDuel.Service.Request
/-!
# WordDuel.Service.Attempt

**One attempt to change a room**, from asking for the lock of the room to the answer. The
attempt goes its way in steps, and at any of them whoever asked for the change may go away:
nothing more is done then, and what has been done so far is left behind.
-/

namespace WordDuel

/-- An attempt to change a room. -/
structure Attempt (σ : Type) where
  service : Service σ
  /-- What comes of asking for the lock. -/
  grant : Grant
  /-- What goes wrong when the lock is given back, if anything does. -/
  release : Option LockCause
  room : RoomId
  /-- What is attempted. -/
  ply : Ply

/-- How far an attempt has come. -/
inductive AttemptPhase
  /-- It asks for the lock. -/
  | asking
  /-- It has the lock and changes the room. -/
  | working (stage : Stage)
  /-- It gives the lock back. -/
  | releasing (result : Result Duel)
  /-- It has been answered, and the log warns of what went wrong with the lock. -/
  | answered (result : Result Reply) (warning : Option LockCause)

namespace Attempt

variable {σ : Type} (a : Attempt σ)

/-- The change as it goes on under the lock. -/
def mutation : Mutation σ := a.service.mutation a.room (a.ply.change.move a.ply.referee)

/-- The answer to a change. -/
def reply (result : Result Duel) : Result Reply := result.map a.ply.change.reply

/-! ### Step by step -/

/-- One step of an attempt. -/
def step (w : World σ) : AttemptPhase → World σ × AttemptPhase
  | .asking =>
    match a.grant with
    | .granted => (w, .working .entered)
    | .late => (w, .answered (.error (.refused (.roomBusy a.room))) none)
    | .failed cause => (w, .answered (.error (.lock cause)) none)
  | .working (.done result) => (w, .releasing result)
  | .working stage =>
    let (w, stage) := a.mutation.step w stage
    (w, .working stage)
  | .releasing result => (w, .answered (a.reply result) a.release)
  | .answered result warning => (w, .answered result warning)

/-- So many steps of an attempt. -/
def steps : Nat → World σ × AttemptPhase → World σ × AttemptPhase
  | 0, (w, phase) => (w, phase)
  | n + 1, (w, phase) => steps n (a.step w phase)

/-- What is left behind if whoever asked goes away. It may happen while an event is being
announced, which so many leaves have taken in by then. -/
def leftBehind (leaves : Nat) : World σ × AttemptPhase → World σ
  | (w, .working (.announcing _ (event :: _))) =>
    { w with sink := w.sink.publishPart ⟨a.room, event⟩ leaves }
  | (w, _) => w

/-! ### To the end -/

/-- Make the attempt without being disturbed. -/
def run (w : World σ) : World σ × Result Reply :=
  a.service.perform a.ply.referee (fun _ => a.grant) w (.change a.room a.ply.change)

/-- Go from a phase to the answer without being disturbed. -/
def resume (w : World σ) : AttemptPhase → World σ × Result Reply
  | .asking => a.run w
  | .working stage => ((a.mutation.resume w stage).1, a.reply (a.mutation.resume w stage).2)
  | .releasing result => (w, a.reply result)
  | .answered result _ => (w, result)

/-- A step does not change what the answer will be. -/
theorem resume_step (w : World σ) (phase : AttemptPhase) :
    a.resume (a.step w phase).1 (a.step w phase).2 = a.resume w phase := by
  match phase with
  | .asking =>
    cases hgrant : a.grant <;>
      simp [step, resume, run, Service.perform, Service.change, hgrant, Mutation.resume, mutation,
        reply, Except.map]
  | .working stage =>
    have hstep := congrArg (fun p => (p.1, a.reply p.2)) (a.mutation.resume_step w stage)
    cases stage with
    | done result => rfl
    | _ => exact hstep
  | .releasing result => rfl
  | .answered result warning => rfl

end Attempt

end WordDuel
