import WordDuel.Duel
import WordDuel.Failure
/-!
# WordDuel.Play.Move

**Moves on a working copy.** A move changes a draft, which is a copy of a duel with
the events announced so far, and gives a result. A move that fails may leave its
draft half changed; whoever started it throws the draft away, and `Move.commit?`
is how.
-/

namespace WordDuel

/-- A working copy of a duel and the events of the changes made to it. -/
structure Draft where
  /-- The duel as it is being changed. -/
  duel : Duel
  /-- The events so far, in order. -/
  events : List Event

/-- A step on a draft that may fail, and may have changed the draft even then. -/
abbrev Move (α : Type) := ExceptT Failure (StateM Draft) α

namespace Move

/-- Make a move on a draft. -/
def on (m : Move α) (draft : Draft) : Result α × Draft := (m.run draft : Result α × Draft)

/-- Make a move on a duel. A move that succeeds gives its value, the changed duel
and the events; of one that fails only the failure remains. -/
def commit? (m : Move α) (duel : Duel) : Result (α × Duel × List Event) :=
  match m.on ⟨duel, []⟩ with
  | (.ok a, draft) => .ok (a, draft.duel, draft.events)
  | (.error failure, _) => .error failure

/-- Fail without changing the draft any further. -/
def fail (failure : Failure) : Move α := throw failure

/-- Go on with a result, or fail with it. -/
def ofResult : Result α → Move α
  | .ok a => pure a
  | .error failure => throw failure

/-- The duel as it stands. -/
def duel : Move Duel := return (← get).duel

/-- Put another duel in the place of the one at hand. -/
def put (duel : Duel) : Move Unit := modify fun draft => { draft with duel }

/-- Announce events. -/
def announce (events : List Event) : Move Unit :=
  modify fun draft => { draft with events := draft.events ++ events }

/-! ### Making a move step by step -/

@[simp] theorem on_pure (a : α) (draft : Draft) : (pure a : Move α).on draft = (.ok a, draft) :=
  rfl

@[simp] theorem on_fail (failure : Failure) (draft : Draft) :
    (fail failure : Move α).on draft = (.error failure, draft) := rfl

@[simp] theorem on_throw (failure : Failure) (draft : Draft) :
    (throw failure : Move α).on draft = (.error failure, draft) := rfl

@[simp] theorem on_ofResult (r : Result α) (draft : Draft) :
    (ofResult r).on draft = (r, draft) := by cases r <;> rfl

@[simp] theorem on_duel (draft : Draft) : Move.duel.on draft = (.ok draft.duel, draft) := rfl

@[simp] theorem on_put (duel : Duel) (draft : Draft) :
    (put duel).on draft = (.ok (), { draft with duel }) := rfl

@[simp] theorem on_announce (events : List Event) (draft : Draft) :
    (announce events).on draft = (.ok (), { draft with events := draft.events ++ events }) := rfl

theorem on_bind (m : Move α) (f : α → Move β) (draft : Draft) :
    (m >>= f).on draft =
      match m.on draft with
      | (.ok a, draft) => (f a).on draft
      | (.error failure, draft) => (.error failure, draft) := by
  show (StateT.bind m (ExceptT.bindCont f)) draft = _
  simp only [StateT.bind, on, ExceptT.run]
  show (match m draft with | (r, s) => ExceptT.bindCont f r s) = _
  rcases m draft with ⟨_ | _, _⟩ <;> rfl

theorem on_map (f : α → β) (m : Move α) (draft : Draft) :
    (f <$> m).on draft = ((m.on draft).1.map f, (m.on draft).2) := by
  rw [← bind_pure_comp, on_bind]
  rcases m.on draft with ⟨_ | _, _⟩ <;> rfl

end Move

end WordDuel
