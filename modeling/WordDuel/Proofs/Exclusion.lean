import WordDuel.Proofs.Locks
import WordDuel.Proofs.Traffic
/-!
# WordDuel.Proofs.Exclusion

**One change at a time.** How far a call has come tells how it stands to the lock of its
room (`CallPhase.Linked`), and the locks are sound. So no change of a room gets the lock
while another one is being worked on, or has yet to let go of it.
-/

namespace WordDuel

/-- How a call that has come so far stands to the lock of its room. -/
def CallPhase.Linked (key : String) (use? : Option LockUse) : CallPhase → Prop
  | .called | .announcing _ _ | .looked _ | .answered _ => use? = none
  | .waiting => ∃ mutex, use? = some (.waiting key mutex)
  | .working _ => ∃ mutex, use? = some (.holding key mutex)
  | .leaving _ => use? = some (.leaving key)

namespace Traffic

variable {σ : Type}

/-- The locks are sound, and used by the calls and by nobody else. -/
structure Locked (t : Traffic σ) : Prop where
  sound : t.table.Sound
  linked : ∀ (i : Nat) (call : Call), t.calls[i]? = some call →
    call.phase.Linked (roomLockKey call.request.room) (t.table.use? i)
  unused : ∀ i, t.calls.length ≤ i → t.table.use? i = none

theorem locked_start (world : World σ) : (start world).Locked where
  sound := LockTable.sound_empty
  linked i call hcall := by cases hcall
  unused i _ := rfl

/-- A step keeps the locks sound, links the call again and leaves the others alone. -/
theorem Next.locked {service : Service σ} {t : Traffic σ} {i : Nat} {call : Call}
    {step : CallStep σ} (h : Next service t i call step) (hsound : t.table.Sound)
    (hlinked : call.phase.Linked (roomLockKey call.request.room) (t.table.use? i)) :
    step.table.Sound ∧
      step.phase.Linked (roomLockKey call.request.room) (step.table.use? i) ∧
      ∀ j, j ≠ i → step.table.use? j = t.table.use? j := by
  cases h with
  | arrive harrives =>
      obtain ⟨-, -, mutex, -, huses⟩ := LockTable.arrive?_eq_some harrives
      exact ⟨hsound.act? harrives, ⟨mutex, (huses i).trans (if_pos rfl)⟩,
        fun j hj => (huses j).trans (if_neg hj)⟩
  | obtain hobtains =>
      obtain ⟨key, mutex, hwaiting, -, -, huses⟩ := LockTable.obtain?_eq_some hobtains
      obtain ⟨mutex', hwaiting'⟩ := hlinked
      cases hwaiting.symm.trans hwaiting'
      exact ⟨hsound.act? hobtains, ⟨mutex, (huses i).trans (if_pos rfl)⟩,
        fun j hj => (huses j).trans (if_neg hj)⟩
  | letGo hletsGo =>
      obtain ⟨use, huse, -, huses⟩ := LockTable.letGo?_eq_some hletsGo
      obtain ⟨mutex, hholding⟩ := hlinked
      cases huse.symm.trans hholding
      exact ⟨hsound.act? hletsGo, (huses i).trans (if_pos rfl),
        fun j hj => (huses j).trans (if_neg hj)⟩
  | prune hprunes =>
      obtain ⟨key, -, -, huses⟩ := LockTable.prune?_eq_some hprunes
      exact ⟨hsound.act? hprunes, (huses i).trans (if_pos rfl),
        fun j hj => (huses j).trans (if_neg hj)⟩
  | giveUp hletsGo =>
      obtain ⟨use, huse, -, huses⟩ := LockTable.letGo?_eq_some hletsGo
      obtain ⟨mutex, hwaiting⟩ := hlinked
      cases huse.symm.trans hwaiting
      exact ⟨hsound.act? hletsGo, (huses i).trans (if_pos rfl),
        fun j hj => (huses j).trans (if_neg hj)⟩
  | _ => exact ⟨hsound, hlinked, fun j _ => rfl⟩

theorem Locked.act? {service : Service σ} {t t' : Traffic σ} (h : t.Locked) {act : TrafficAct}
    (hact : t.act? service act = some t') : t'.Locked := by
  rcases act?_cases hact with
    ⟨request, referee, -, -, rfl⟩ | ⟨i, call, step, -, hcall, hnext, rfl⟩
  · refine ⟨h.sound, ?_, ?_⟩
    · intro j call hcall
      rcases Nat.lt_or_ge j t.calls.length with hlt | hge
      · exact h.linked j call ((List.getElem?_append_left hlt).symm.trans hcall)
      · have hnew := (List.getElem?_append_right hge).symm.trans hcall
        rw [List.mem_singleton.1 (List.mem_of_getElem? hnew)]
        exact h.unused j hge
    · intro j hj
      rw [List.length_append] at hj
      exact h.unused j (Nat.le_of_succ_le hj)
  · obtain ⟨hsound, hlinked, hothers⟩ := hnext.locked h.sound (h.linked i call hcall)
    refine ⟨hsound, ?_, ?_⟩
    · intro j call' hcall'
      rw [calls_take hcall] at hcall'
      split at hcall'
      · next hj =>
        obtain rfl := Option.some.inj hcall'
        rw [hj]
        exact hlinked
      · next hj =>
        show CallPhase.Linked _ (step.table.use? j) _
        rw [hothers j hj]
        exact h.linked j call' hcall'
    · intro j hj
      have hlength : (t.take i step).calls.length = t.calls.length := List.length_modify _ _ _
      have hi := (List.getElem?_eq_some_iff.1 hcall).1
      rw [hlength] at hj
      exact (hothers j (Nat.ne_of_gt (Nat.lt_of_lt_of_le hi hj))).trans (h.unused j hj)

/-- While a change of a room is being worked on, no other gets the lock of the room. -/
theorem Locked.not_working {t : Traffic σ} (h : t.Locked) {i j : Nat} {table : LockTable}
    {call call' : Call} {stage : Stage} (hcall : t.calls[i]? = some call)
    (hwaiting : call.phase = .waiting) (hobtains : t.table.act? (.obtain i) = some table)
    (hcall' : t.calls[j]? = some call') (hroom : call'.request.room = call.request.room) :
    call'.phase ≠ .working stage := by
  intro hworking
  have hlinked := h.linked i call hcall
  have hlinked' := h.linked j call' hcall'
  rw [hwaiting] at hlinked
  rw [hworking, hroom] at hlinked'
  obtain ⟨mutex, huse⟩ := hlinked
  obtain ⟨mutex', huse'⟩ := hlinked'
  obtain ⟨key, free, huse'', hfree, -, -⟩ := LockTable.obtain?_eq_some hobtains
  cases huse.symm.trans huse''
  rw [h.sound.not_isFree huse' huse] at hfree
  cases hfree

end Traffic

end WordDuel
