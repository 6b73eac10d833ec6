import WordDuel.Proofs.Contest
/-!
# WordDuel.Proofs.Farewell

**How a lease is parted with.** Somebody who has had a lease and is done with it has parted with it
in exactly one step (`Claimant.Past.parted_of_done`): the one that sends the command to free it,
the one that finds it lost when it is to be given back, or the one that drops its holder after
giving it back has begun and before anything is sent. In the last case the command is not sent
later either, and it is up to the server when the lease ends.

How far a claimant has come in parting with its lease can be told from its phase
(`Claimant.Settled`). What its renewer does in between is all the same.
-/

namespace WordDuel

/-- How a lease is parted with. -/
inductive Farewell
  /-- The command that frees it is sent. -/
  | freed
  /-- It is found lost when it is to be given back. -/
  | lost
  /-- Its holder is dropped between beginning to give it back and sending the command. -/
  | forgotten
  deriving DecidableEq, Repr

theorem LeaseHolder.noteRenewal_released (lease : LeaseHolder) (answer : LeaseAnswer) :
    (lease.noteRenewal answer).released = lease.released := by
  match answer with
  | none | some true | some false => rfl

namespace Claimant

/-- A step of a claimant or its renewer that was taken. -/
structure Move where
  before : Claimant
  /-- What was sent. -/
  sent : Option LeaseCommand
  after : Claimant

/-- How a lease is parted with in a step, if it is. -/
def Move.farewell? (m : Move) : Option Farewell :=
  if m.sent = some m.before.lease.freeing then some .freed
  else
    match m.before.phase, m.after.phase with
    | .holding, .released _ => some .lost
    | .leaving _, .gone => some .forgotten
    | _, _ => none

/-- What can have come before a claimant is what it is, whatever answers there were. -/
inductive Past (start : Claimant) : List Move → Claimant → Prop
  | nil : Past start [] start
  | snoc {moves : List Move} {c c' : Claimant} {next : MessageId}
    {given? : MessageId → Option Bool} {command? : Option LeaseCommand}
    (hpast : Past start moves c) (hstep : c.Step next given? c' command?) :
    Past start (moves ++ [⟨c, command?, c'⟩]) c'

/-- A claimant has had its lease if a renewer works for it or has worked. -/
def HasHad (c : Claimant) : Prop := c.renewer ≠ .absent

/-- A claimant is through with everything. -/
def IsDone (c : Claimant) : Prop := c.phase = .gone ∨ ∃ result, c.phase = .released result

/-- There is nothing to part with, and no renewer that could be told to stop. -/
structure Unserved (c : Claimant) (parted : List Farewell) : Prop where
  renewer : c.renewer = .absent
  renewing : c.lease.renewing = true
  released : c.lease.released = false
  parted : parted = []

/-- How far a claimant has come in parting with its lease when it has come to a phase. -/
def Settled (c : Claimant) (parted : List Farewell) : ClaimantPhase → Prop
  | .claiming | .asking _ | .refused | .turnedAway _ => Unserved c parted
  | .holding => c.HasHad ∧ c.lease.released = false ∧ parted = []
  | .leaving command =>
    c.HasHad ∧ c.lease.released = true ∧ command = c.lease.freeing ∧ parted = []
  | .returning _ => c.HasHad ∧ c.lease.released = true ∧ parted = [.freed]
  | .dropped command => c.HasHad ∧ command = c.lease.freeing ∧ parted = []
  | .released _ => c.HasHad ∧ ∃ farewell, parted = [farewell]
  | .gone => Unserved c parted ∨ (c.HasHad ∧ ∃ farewell, parted = [farewell])

variable {c c' start : Claimant} {next : MessageId} {given? : MessageId → Option Bool}
  {command? : Option LeaseCommand} {moves : List Move} {parted : List Farewell}

/-! ### One step -/

theorem claim_ne_freeing (c : Claimant) : some c.claim ≠ some c.lease.freeing := by
  intro h
  cases Option.some.inj h

theorem renewal_ne_freeing (lease : LeaseHolder) (ttl : Nat) :
    some (lease.renewal ttl) ≠ some lease.freeing := by
  intro h
  cases Option.some.inj h

theorem farewell?_eq_freed_iff {m : Move} :
    m.farewell? = some .freed ↔ m.sent = some m.before.lease.freeing := by
  rw [Move.farewell?]
  split
  · next hsent => exact ⟨fun _ => hsent, fun _ => rfl⟩
  · next hsent =>
    refine ⟨fun h => ?_, fun h => absurd h hsent⟩
    split at h <;> cases h

/-- To stay in a phase without freeing the lease does not part with it. -/
theorem farewell?_of_phase_eq (hsent : command? ≠ some c.lease.freeing)
    (hphase : c'.phase = c.phase) : Move.farewell? ⟨c, command?, c'⟩ = none := by
  rw [Move.farewell?, if_neg hsent]
  dsimp only
  rw [hphase]
  cases c.phase <;> rfl

/-- To leave any other phase without freeing the lease does not part with it. -/
theorem farewell?_of_phase_ne (hsent : command? ≠ some c.lease.freeing)
    (hholding : c.phase ≠ .holding) (hleaving : ∀ command, c.phase ≠ .leaving command) :
    Move.farewell? ⟨c, command?, c'⟩ = none := by
  rw [Move.farewell?, if_neg hsent]
  dsimp only
  split
  · next hphase _ => exact absurd hphase hholding
  · next hphase _ => exact absurd hphase (hleaving _)
  · rfl

/-- What a renewer does neither parts with the lease nor keeps the claimant from doing so. -/
theorem Settled.of_renewer {phase : ClaimantPhase} (h : Settled c parted phase)
    (hserved : c.HasHad ∨ c.lease.renewing = false) (hhad : c'.HasHad)
    (hreleased : c'.lease.released = c.lease.released)
    (hfreeing : c'.lease.freeing = c.lease.freeing) : Settled c' parted phase := by
  have hnot : ¬Unserved c parted := by
    intro hunserved
    rcases hserved with hserved | hstopped
    · exact hserved hunserved.renewer
    · cases hunserved.renewing.symm.trans hstopped
  cases phase with
  | claiming => exact absurd h hnot
  | asking message => exact absurd h hnot
  | refused => exact absurd h hnot
  | turnedAway cause => exact absurd h hnot
  | holding =>
      obtain ⟨-, hheld, hparted⟩ := h
      exact ⟨hhad, hreleased.trans hheld, hparted⟩
  | leaving command =>
      obtain ⟨-, hbegun, hcommand, hparted⟩ := h
      exact ⟨hhad, hreleased.trans hbegun, hcommand.trans hfreeing.symm, hparted⟩
  | returning message =>
      obtain ⟨-, hbegun, hparted⟩ := h
      exact ⟨hhad, hreleased.trans hbegun, hparted⟩
  | released result => exact ⟨hhad, h.2⟩
  | dropped command =>
      obtain ⟨-, hcommand, hparted⟩ := h
      exact ⟨hhad, hcommand.trans hfreeing.symm, hparted⟩
  | gone =>
      rcases h with hunserved | ⟨-, hparted⟩
      · exact absurd hunserved hnot
      · exact .inr ⟨hhad, hparted⟩

/-- How far a claimant has come in parting with its lease after a step. -/
theorem Settled.step (h : Settled c parted c.phase) (hstep : c.Step next given? c' command?) :
    Settled c' (parted ++ (Move.farewell? ⟨c, command?, c'⟩).toList) c'.phase := by
  have hkeep (hnone : Move.farewell? ⟨c, command?, c'⟩ = none)
      (hsettled : Settled c' parted c'.phase) :
      Settled c' (parted ++ (Move.farewell? ⟨c, command?, c'⟩).toList) c'.phase := by
    rwa [hnone, Option.toList_none, List.append_nil]
  cases hstep with
  | claim hphase =>
      rw [hphase] at h
      refine hkeep ?_ ⟨h.renewer, h.renewing, h.released, h.parted⟩
      exact farewell?_of_phase_ne c.claim_ne_freeing (by simp [hphase]) (by simp [hphase])
  | refused hphase | unheard hphase | retry hphase | giveUp hphase =>
      rw [hphase] at h
      refine hkeep ?_ ⟨h.renewer, h.renewing, h.released, h.parted⟩
      exact farewell?_of_phase_ne nofun (by simp [hphase]) (by simp [hphase])
  | granted hphase hgiven =>
      rw [hphase] at h
      refine hkeep ?_ ⟨nofun, h.released, h.parted⟩
      exact farewell?_of_phase_ne nofun (by simp [hphase]) (by simp [hphase])
  | told hphase hgiven =>
      rw [hphase] at h
      obtain ⟨hhad, -, hparted⟩ := h
      refine hkeep ?_ ⟨hhad, .freed, hparted⟩
      exact farewell?_of_phase_ne nofun (by simp [hphase]) (by simp [hphase])
  | give hphase =>
      rw [hphase] at h
      obtain ⟨hhad, hbegun, rfl, rfl⟩ := h
      rw [farewell?_eq_freed_iff.2 rfl]
      exact ⟨hhad, hbegun, rfl⟩
  | free hphase =>
      rw [hphase] at h
      obtain ⟨hhad, rfl, rfl⟩ := h
      rw [farewell?_eq_freed_iff.2 rfl]
      exact .inr ⟨hhad, .freed, rfl⟩
  | release hphase hlapsed =>
      rw [hphase] at h
      obtain ⟨hhad, -, hparted⟩ := h
      refine hkeep ?_ ⟨hhad, rfl, rfl, hparted⟩
      rw [Move.farewell?, hphase]
      rfl
  | lost hphase hlapsed =>
      rw [hphase] at h
      obtain ⟨hhad, -, rfl⟩ := h
      rw [Move.farewell?, hphase]
      exact ⟨hhad, .lost, rfl⟩
  | dropEarly hphase =>
      rcases hphase with hphase | ⟨message, hphase⟩ | hphase <;> rw [hphase] at h
      all_goals
        refine hkeep ?_ (.inl ⟨h.renewer, h.renewing, h.released, h.parted⟩)
        exact farewell?_of_phase_ne nofun (by simp [hphase]) (by simp [hphase])
  | drop hphase hreleased =>
      rcases hphase with hphase | ⟨command, hphase⟩ | ⟨message, hphase⟩ <;> rw [hphase] at h
      · obtain ⟨hhad, -, hparted⟩ := h
        refine hkeep ?_ ⟨hhad, rfl, hparted⟩
        rw [Move.farewell?, hphase]
        rfl
      · cases hreleased.symm.trans h.2.1
      · cases hreleased.symm.trans h.2.1
  | dropLate hphase hreleased =>
      rcases hphase with hphase | ⟨command, hphase⟩ | ⟨message, hphase⟩ <;> rw [hphase] at h
      · cases hreleased.symm.trans h.2.1
      · obtain ⟨hhad, -, -, rfl⟩ := h
        rw [Move.farewell?, hphase]
        exact .inr ⟨hhad, .forgotten, rfl⟩
      · obtain ⟨hhad, -, hparted⟩ := h
        refine hkeep ?_ (.inr ⟨hhad, .freed, hparted⟩)
        exact farewell?_of_phase_ne nofun (by simp [hphase]) (by simp [hphase])
  | renew hrenewer =>
      refine hkeep (farewell?_of_phase_eq (renewal_ne_freeing _ _) rfl) ?_
      exact h.of_renewer (.inl (by simp [HasHad, hrenewer])) (by simp [HasHad]) rfl rfl
  | renewed hrenewer hgiven =>
      refine hkeep (farewell?_of_phase_eq nofun rfl) ?_
      obtain ⟨hkey, htoken⟩ := c.lease.noteRenewal_key_token _
      refine h.of_renewer (.inl (by simp [HasHad, hrenewer])) ?_ ?_ ?_
      · show (if _ then Renewer.stopped else .resting) ≠ .absent
        split <;> simp
      · exact c.lease.noteRenewal_released _
      · rw [LeaseHolder.freeing, hkey, htoken, LeaseHolder.freeing]
  | halt hrenewing =>
      refine hkeep (farewell?_of_phase_eq nofun rfl) ?_
      exact h.of_renewer (.inr hrenewing) (by simp [HasHad]) rfl rfl

/-! ### Everything that came before -/

section Past

variable {provider : LeaseProvider} {key : String} {token : Token}

theorem filterMap_farewell?_concat (moves : List Move) (m : Move) :
    (moves ++ [m]).filterMap Move.farewell? =
      moves.filterMap Move.farewell? ++ m.farewell?.toList := by
  cases hfarewell : m.farewell? <;> simp [List.filterMap_append, hfarewell]

/-- Whatever has come before, a claimant's phase tells how far it has come. -/
theorem Past.settled (h : Past (.new provider key token) moves c) :
    Settled c (moves.filterMap Move.farewell?) c.phase := by
  induction h with
  | nil => exact ⟨rfl, rfl, rfl, rfl⟩
  | snoc hpast hstep ih =>
      rw [filterMap_farewell?_concat]
      exact ih.step hstep

/-- Somebody who has had a lease and is done with it has parted with it in one step. -/
theorem Past.parted_of_done (h : Past (.new provider key token) moves c) (hhad : c.HasHad)
    (hdone : c.IsDone) : ∃ farewell, moves.filterMap Move.farewell? = [farewell] := by
  have hsettled := h.settled
  rcases hdone with hphase | ⟨result, hphase⟩ <;> rw [hphase] at hsettled
  · rcases hsettled with hunserved | ⟨-, hparted⟩
    · exact absurd hunserved.renewer hhad
    · exact hparted
  · exact hsettled.2

/-- The command that frees a lease is sent, unless the lease is found lost or forgotten. -/
theorem Past.freed_iff_of_done (h : Past (.new provider key token) moves c) (hhad : c.HasHad)
    (hdone : c.IsDone) :
    (∃ m ∈ moves, m.sent = some m.before.lease.freeing) ↔
      ∀ m ∈ moves, m.farewell? ≠ some .lost ∧ m.farewell? ≠ some .forgotten := by
  obtain ⟨farewell, hparted⟩ := h.parted_of_done hhad hdone
  have hmem (farewell' : Farewell) :
      (∃ m ∈ moves, m.farewell? = some farewell') ↔ farewell' = farewell := by
    rw [← List.mem_filterMap, hparted, List.mem_singleton]
  constructor
  · rintro ⟨m, hm, hsent⟩
    obtain rfl := (hmem .freed).1 ⟨m, hm, farewell?_eq_freed_iff.2 hsent⟩
    intro m' hm'
    constructor
    · intro hlost
      cases (hmem .lost).1 ⟨m', hm', hlost⟩
    · intro hforgotten
      cases (hmem .forgotten).1 ⟨m', hm', hforgotten⟩
  · intro hall
    obtain ⟨m, hm, hfarewell⟩ := (hmem farewell).2 rfl
    obtain ⟨hlost, hforgotten⟩ := hall m hm
    cases farewell with
    | freed => exact ⟨m, hm, farewell?_eq_freed_iff.1 hfarewell⟩
    | lost => exact absurd hfarewell hlost
    | forgotten => exact absurd hfarewell hforgotten

end Past

end Claimant

namespace Contest

variable {s : Contest} {c : Claimant}

/-- Every claimant of a contest has asked for a lock at first. -/
theorem exists_past {acts : List ContestAct} (hrun : empty.run? acts = some s)
    (hc : c ∈ s.claimants) :
    ∃ provider key token moves, Claimant.Past (.new provider key token) moves c := by
  revert c
  refine of_run? (motive := fun s => ∀ {c}, c ∈ s.claimants →
    ∃ provider key token moves, Claimant.Past (.new provider key token) moves c) ?_ ?_ hrun
  · intro c hc
    cases hc
  · intro s s' act hpast hact c hc
    rcases act?_cases hact with ⟨provider, key, token, -, hnew, rfl⟩ |
      ⟨i, what, d, d', command?, -, hd, hstep, rfl⟩ | ⟨p, -, hp, rfl⟩ | ⟨p, -, hp, rfl⟩ |
      ⟨key, -, rfl⟩ | ⟨ms, -, rfl⟩
    · rcases List.mem_append.1 hc with hc | hc
      · exact hpast hc
      · obtain rfl := List.mem_singleton.1 hc
        exact ⟨provider, key, token, [], .nil⟩
    · rw [send_turn] at hc
      rcases List.mem_or_eq_of_mem_set hc with hc | rfl
      · exact hpast hc
      · obtain ⟨provider, key, token, moves, hbefore⟩ := hpast (List.mem_of_getElem? hd)
        exact ⟨provider, key, token, _, hbefore.snoc hstep⟩
    · exact hpast hc
    · exact hpast hc
    · exact hpast hc
    · exact hpast hc

/-- A holder that is dropped before the command is sent leaves the lease behind. -/
example : (empty.run? [.enter { ttl := 30000 } "room" 1, .claimant 0 .send, .serve 0,
    .claimant 0 (.hear (some true)), .claimant 0 .release, .claimant 0 .drop]).map
      (fun s => (s.register.owner? "wordle-duel:lock:room", s.underway)) =
    some (some 1, []) := by decide +kernel

end Contest

end WordDuel
