import WordDuel.Proofs.Structure
import WordDuel.Service.Attempt
/-!
# WordDuel.Proofs.Atomicity

**All or nothing.** An attempt to change a room goes through its phases one step at a time.
Up to the commit it has touched nothing but its working copy, and from the commit on nothing
can fail any more. `Attempt.Fits` says for every phase what has been stored and announced by
then; a step preserves it, and everything else is read off.
-/

namespace WordDuel

variable {σ : Type}

/-! ### What is asked of a store -/

/-- A store keeps the duels that a view shows: a unit of work reads the duel of its room, and
what it commits is the duel of its room from then on, while the other rooms stay. -/
structure Store.Keeps (store : Store σ) (view : σ → RoomId → Option Duel) : Prop where
  openUnit : ∀ {s room exclusive u}, store.openUnit s room exclusive = .ok u → u.room = room
  loadIn : ∀ {s u found u'}, store.loadIn s u = .ok (found, u') →
    found = view s u.room ∧ u'.room = u.room
  commit : ∀ {s u duel s'}, store.commit s u duel = .ok s' →
    ∀ room, view s' room = if room = u.room then some duel else view s room

theorem Store.keeps_memory : Store.memory.Keeps SortedMap.get? where
  openUnit h := by
    obtain rfl := Except.ok.inj h
    rfl
  loadIn h := by
    obtain ⟨rfl, rfl⟩ := Prod.mk.inj (Except.ok.inj h)
    exact ⟨rfl, rfl⟩
  commit {s u duel s'} h room := by
    obtain rfl := Except.ok.inj h
    simpa using SortedMap.get?_insert s u.room room duel

/-- Wherever a store fails, it keeps the duels as they are. -/
theorem Store.Keeps.withFaults {store : Store σ} {view : σ → RoomId → Option Duel}
    (h : store.Keeps view) (fault : Store.Call → Option StorageCause) :
    (store.withFaults fault).Keeps view where
  openUnit hopen := by
    simp only [Store.withFaults] at hopen
    split at hopen
    · cases hopen
    · exact h.openUnit hopen
  loadIn hload := by
    simp only [Store.withFaults] at hload
    split at hload
    · cases hload
    · exact h.loadIn hload
  commit hcommit := by
    simp only [Store.withFaults] at hcommit
    split at hcommit
    · cases hcommit
    · exact h.commit hcommit

namespace Attempt

variable {a : Attempt σ} {view : σ → RoomId → Option Duel}

/-! ### Phase by phase -/

/-- The attempt has succeeded on the duel that it found: the new duel is stored, and these
are the events. -/
structure Makes (a : Attempt σ) (view : σ → RoomId → Option Duel) (s s' : σ) (duel : Duel)
    (events : List Event) : Prop where
  played : ∃ found, view s a.room = some found ∧ a.ply.play? found = .ok (duel, events)
  stored : ∀ room, view s' room = if room = a.room then some duel else view s room

/-- What has become of the world when a change comes to a result. -/
def Concludes (a : Attempt σ) (view : σ → RoomId → Option Duel) (w w' : World σ) :
    Result Duel → Prop
  | .error _ => w' = w
  | .ok duel => ∃ events, a.Makes view w.stored w'.stored duel events ∧
      w'.sink = w.sink.publishAll a.room events

/-- What has become of the world by some phase. -/
def Fits (a : Attempt σ) (view : σ → RoomId → Option Duel) (w w' : World σ) :
    AttemptPhase → Prop
  | .asking | .working .entered => w' = w
  | .working (.opened u) => w' = w ∧ u.room = a.room
  | .working (.loaded u found) => w' = w ∧ u.room = a.room ∧ view w.stored a.room = some found
  | .working (.judged u duel events) => w' = w ∧ u.room = a.room ∧
      ∃ found, view w.stored a.room = some found ∧ a.ply.play? found = .ok (duel, events)
  | .working (.announcing duel left) => ∃ told,
      a.Makes view w.stored w'.stored duel (told ++ left) ∧
        w'.sink = w.sink.publishAll a.room told
  | .working (.done result) | .releasing result => a.Concludes view w w' result
  | .answered reply _ => ∃ result, reply = a.reply result ∧ a.Concludes view w w' result

/-- A stage under the lock leaves behind what fits the next one. -/
theorem Fits.work (hkeeps : a.service.store.Keeps view) {w w' : World σ} {stage : Stage}
    (h : a.Fits view w w' (.working stage)) :
    a.Fits view w (a.mutation.step w' stage).1 (.working (a.mutation.step w' stage).2) := by
  cases stage with
  | entered =>
      rw [Mutation.step]
      split
      · next u hopen => exact ⟨h, hkeeps.openUnit hopen⟩
      · exact h
  | opened u =>
      obtain ⟨rfl, hroom⟩ := h
      rw [Mutation.step]
      split
      · next found u' hload =>
        obtain ⟨hfound, hroom'⟩ := hkeeps.loadIn hload
        rw [hroom] at hfound hroom'
        exact ⟨rfl, hroom', hfound.symm⟩
      · rfl
      · rfl
  | loaded u found =>
      obtain ⟨rfl, hroom, hfound⟩ := h
      rw [Mutation.step]
      split
      · next duel events hcommit =>
        refine ⟨rfl, hroom, found, hfound, ?_⟩
        exact congrArg (Except.map Prod.snd) hcommit
      · rfl
  | judged u duel events =>
      obtain ⟨rfl, hroom, hplayed⟩ := h
      rw [Mutation.step]
      split
      · next stored hcommit =>
        refine ⟨[], ⟨hplayed, fun room => ?_⟩, rfl⟩
        rw [hkeeps.commit hcommit, hroom]
      · rfl
  | announcing duel left =>
      obtain ⟨told, hmakes, hsink⟩ := h
      cases left with
      | nil =>
          rw [List.append_nil] at hmakes
          exact ⟨told, hmakes, hsink⟩
      | cons event left =>
          refine ⟨told ++ [event], ?_, ?_⟩
          · rw [List.append_assoc]
            exact hmakes
          · show (w'.sink.publish ⟨a.room, event⟩).1 = _
            rw [hsink, Sink.publishAll, Sink.publishAll, List.foldl_append]
            rfl
  | done result => exact h

/-- A step leaves behind what fits the next phase. -/
theorem Fits.step (hkeeps : a.service.store.Keeps view) {w w' : World σ} {phase : AttemptPhase}
    (h : a.Fits view w w' phase) : a.Fits view w (a.step w' phase).1 (a.step w' phase).2 := by
  cases phase with
  | asking =>
      rw [Attempt.step]
      split
      · exact h
      · exact ⟨.error (.refused (.roomBusy a.room)), rfl, h⟩
      · next cause hgrant => exact ⟨.error (.lock cause), rfl, h⟩
  | working stage =>
      cases stage with
      | done result => exact h
      | _ => exact h.work hkeeps
  | releasing result => exact ⟨result, rfl, h⟩
  | answered reply warning => exact h

theorem Fits.steps (hkeeps : a.service.store.Keeps view) {w w' : World σ} {phase : AttemptPhase}
    (h : a.Fits view w w' phase) (n : Nat) :
    a.Fits view w (a.steps n (w', phase)).1 (a.steps n (w', phase)).2 := by
  induction n generalizing w' phase with
  | zero => exact h
  | succ n ih => exact ih (h.step hkeeps)

/-! ### To the answer -/

theorem resume_steps (a : Attempt σ) (n : Nat) (w : World σ) (phase : AttemptPhase) :
    a.resume (a.steps n (w, phase)).1 (a.steps n (w, phase)).2 = a.resume w phase := by
  induction n generalizing w phase with
  | zero => rfl
  | succ n ih => exact (ih _ _).trans (a.resume_step w phase)

/-- From this phase on the attempt comes to an answer. -/
def Ends (a : Attempt σ) (w : World σ) (phase : AttemptPhase) : Prop :=
  ∃ n w' reply warning, a.steps n (w, phase) = (w', .answered reply warning)

theorem Ends.of_step {w : World σ} {phase : AttemptPhase}
    (h : a.Ends (a.step w phase).1 (a.step w phase).2) : a.Ends w phase := by
  obtain ⟨n, w', reply, warning, hsteps⟩ := h
  exact ⟨n + 1, w', reply, warning, hsteps⟩

theorem ends_releasing (a : Attempt σ) (w : World σ) (result : Result Duel) :
    a.Ends w (.releasing result) :=
  ⟨1, w, a.reply result, a.release, rfl⟩

theorem ends_done (a : Attempt σ) (w : World σ) (result : Result Duel) :
    a.Ends w (.working (.done result)) :=
  .of_step (a.ends_releasing w result)

theorem ends_announcing (a : Attempt σ) (w : World σ) (duel : Duel) (events : List Event) :
    a.Ends w (.working (.announcing duel events)) := by
  induction events generalizing w with
  | nil => exact .of_step (a.ends_done w _)
  | cons event events ih => exact .of_step (ih _)

-- Up to the commit every step either goes on to the next stage or is the last one.
theorem ends_judged (a : Attempt σ) (w : World σ) (u : UnitOfWork) (duel : Duel)
    (events : List Event) : a.Ends w (.working (.judged u duel events)) := by
  refine .of_step ?_
  simp only [step, Mutation.step]
  split
  · exact a.ends_announcing _ duel events
  · exact a.ends_done w _

theorem ends_loaded (a : Attempt σ) (w : World σ) (u : UnitOfWork) (duel : Duel) :
    a.Ends w (.working (.loaded u duel)) := by
  refine .of_step ?_
  simp only [step, Mutation.step]
  split
  · exact a.ends_judged w u _ _
  · exact a.ends_done w _

theorem ends_opened (a : Attempt σ) (w : World σ) (u : UnitOfWork) :
    a.Ends w (.working (.opened u)) := by
  refine .of_step ?_
  simp only [step, Mutation.step]
  split
  · exact a.ends_loaded w _ _
  · exact a.ends_done w _
  · exact a.ends_done w _

theorem ends_asking (a : Attempt σ) (w : World σ) : a.Ends w .asking := by
  refine .of_step ?_
  simp only [step]
  split
  · refine .of_step ?_
    simp only [step, Mutation.step]
    split
    · exact a.ends_opened w _
    · exact a.ends_done w _
  · exact ⟨0, w, _, _, rfl⟩
  · exact ⟨0, w, _, _, rfl⟩

theorem exists_steps_answered (a : Attempt σ) (w : World σ) :
    ∃ n warning, a.steps n (w, .asking) = ((a.run w).1, .answered (a.run w).2 warning) := by
  obtain ⟨n, w', reply, warning, hsteps⟩ := a.ends_asking w
  have hresume : (w', reply) = a.run w := by
    have hresume := a.resume_steps n w .asking
    rwa [hsteps] at hresume
  exact ⟨n, warning, by rw [← hresume, hsteps]⟩

/-- What the run of an attempt comes to. -/
theorem run_spec (hkeeps : a.service.store.Keeps view) (w : World σ) :
    ∃ result, (a.run w).2 = a.reply result ∧ a.Concludes view w (a.run w).1 result := by
  obtain ⟨n, warning, hsteps⟩ := a.exists_steps_answered w
  have hfits : a.Fits view w w .asking := rfl
  have hfits := hfits.steps hkeeps n
  rwa [hsteps] at hfits

/-! ### All or nothing -/

/-- A leaf after it has taken in some events of the room. -/
def told (a : Attempt σ) (events : List Event) (leaf : String × List Envelope) :
    String × List Envelope :=
  (leaf.1, leaf.2 ++ events.map fun event => ⟨a.room, event⟩)

theorem leaves_publishAll (a : Attempt σ) (sink : Sink) (events : List Event) :
    (sink.publishAll a.room events).leaves = sink.leaves.map (a.told events) :=
  sink.leaves_publishAll a.room events

/-- Whoever goes away leaves nothing behind, or the new duel, of whose events some have been
announced. -/
theorem Fits.leftBehind {w w' : World σ} {phase : AttemptPhase} (h : a.Fits view w w' phase)
    (reached : Nat) :
    a.leftBehind reached (w', phase) = w ∨
      ∃ duel before after, a.Makes view w.stored (a.leftBehind reached (w', phase)).stored duel
          (before ++ after) ∧
        ∃ first, (a.leftBehind reached (w', phase)).sink.leaves =
          (w.sink.leaves.take first).map (a.told (before ++ after.take 1)) ++
            (w.sink.leaves.drop first).map (a.told before) := by
  have hconcluded {result : Result Duel} (hresult : a.Concludes view w w' result) :
      w' = w ∨ ∃ duel before after, a.Makes view w.stored w'.stored duel (before ++ after) ∧
        ∃ first, w'.sink.leaves =
          (w.sink.leaves.take first).map (a.told (before ++ after.take 1)) ++
            (w.sink.leaves.drop first).map (a.told before) := by
    cases result with
    | error failure => exact .inl hresult
    | ok duel =>
        obtain ⟨events, hmakes, hsink⟩ := hresult
        refine .inr ⟨duel, events, [], by rwa [List.append_nil], 0, ?_⟩
        rw [hsink, leaves_publishAll]
        rfl
  cases phase with
  | asking => exact .inl h
  | working stage =>
      cases stage with
      | entered => exact .inl h
      | opened u => exact .inl h.1
      | loaded u found => exact .inl h.1
      | judged u duel events => exact .inl h.1
      | announcing duel left =>
          obtain ⟨before, hmakes, hsink⟩ := h
          refine .inr ⟨duel, before, left, ?_⟩
          cases left with
          | nil =>
              refine ⟨hmakes, 0, ?_⟩
              show w'.sink.leaves = _
              rw [hsink, leaves_publishAll]
              rfl
          | cons event left =>
              refine ⟨hmakes, reached, ?_⟩
              show (w'.sink.publishPart ⟨a.room, event⟩ reached).leaves = _
              rw [Sink.leaves_publishPart, hsink, leaves_publishAll, ← List.map_take,
                ← List.map_drop, List.map_map]
              congr 2
              funext leaf
              simp [told]
      | done result => exact hconcluded h
  | releasing result => exact hconcluded h
  | answered reply warning =>
      obtain ⟨result, -, hresult⟩ := h
      exact hconcluded hresult

/-- However the lock, the store, the referee and the sinks behave, an attempt to change a
room comes to an answer. If that is a failure, nothing has been stored or announced. If it is
a success, the change has been made to the duel that was stored, the new duel has taken its
place, and every leaf has taken in the events of the change in order, each once. And if
whoever asked goes away after any number of steps, and after any number of leaves have taken
in the event that is being announced, then either nothing has been stored or announced, or
the new duel is stored and every leaf has taken in the events that come first: some leaves at
the front one more than the others. -/
theorem all_or_nothing (a : Attempt σ) (hkeeps : a.service.store.Keeps view) (w : World σ) :
    (∃ n warning, a.steps n (w, .asking) = ((a.run w).1, .answered (a.run w).2 warning)) ∧
    (∀ failure, (a.run w).2 = .error failure → (a.run w).1 = w) ∧
    (∀ reply, (a.run w).2 = .ok reply → ∃ duel events, reply = a.ply.change.reply duel ∧
      a.Makes view w.stored (a.run w).1.stored duel events ∧
      (a.run w).1.sink.leaves = w.sink.leaves.map (a.told events)) ∧
    ∀ n reached, a.leftBehind reached (a.steps n (w, .asking)) = w ∨
      ∃ duel before after,
        a.Makes view w.stored (a.leftBehind reached (a.steps n (w, .asking))).stored duel
          (before ++ after) ∧
        ∃ first, (a.leftBehind reached (a.steps n (w, .asking))).sink.leaves =
          (w.sink.leaves.take first).map (a.told (before ++ after.take 1)) ++
            (w.sink.leaves.drop first).map (a.told before) := by
  obtain ⟨result, hreply, hresult⟩ := a.run_spec hkeeps w
  refine ⟨a.exists_steps_answered w, fun failure hfailed => ?_, fun reply hdone => ?_,
    fun n reached => ?_⟩
  · rw [hfailed] at hreply
    cases result with
    | error failure => exact hresult
    | ok duel => cases hreply
  · rw [hdone] at hreply
    cases result with
    | error failure => cases hreply
    | ok duel =>
        obtain ⟨events, hmakes, hsink⟩ := hresult
        exact ⟨duel, events, Except.ok.inj hreply, hmakes, by rw [hsink, leaves_publishAll]⟩
  · have hfits : a.Fits view w w .asking := rfl
    exact (hfits.steps hkeeps n).leftBehind reached

end Attempt

namespace Sample

/-- The store cannot be read outside a unit of work. -/
def fault : Store.Call → Option StorageCause
  | .load => some (.reported ["down"])
  | _ => none

/-- Bob comes in, and the lock is lost on the way. -/
def troubled : Attempt Store.Memory where
  service := ⟨Store.memory.withFaults fault, true⟩
  grant := .granted
  release := some (.expired "room")
  room := ⟨7⟩
  ply := ⟨referee, .join bob⟩

/-- Alice is alone in the room, and the first of two sinks does not work. -/
def waiting : World Store.Memory where
  stored := SortedMap.empty.insert ⟨7⟩ (after [])
  sink := .bus [.broken ["down"], .recorder]

end Sample

theorem Attempt.all_or_nothing_of_troubled :
    Sample.troubled.service.store.Keeps SortedMap.get? ∧
    ∃ reply duel events, (Sample.troubled.run Sample.waiting).2 = .ok reply ∧
      reply = .view (duel.viewFor Sample.bob) ∧
      Sample.troubled.Makes SortedMap.get? Sample.waiting.stored
        (Sample.troubled.run Sample.waiting).1.stored duel events ∧
      (Sample.troubled.run Sample.waiting).1.sink.leaves =
        [("broken", events.map (⟨⟨7⟩, ·⟩)), ("recorder", events.map (⟨⟨7⟩, ·⟩))] := by
  have hkeeps : Sample.troubled.service.store.Keeps SortedMap.get? :=
    Store.keeps_memory.withFaults Sample.fault
  have hok : (Sample.troubled.run Sample.waiting).2.isOk := by decide +kernel
  obtain ⟨-, -, hdone, -⟩ := Sample.troubled.all_or_nothing hkeeps Sample.waiting
  cases hrun : (Sample.troubled.run Sample.waiting).2 with
  | error failure =>
      rw [hrun] at hok
      cases hok
  | ok reply =>
      obtain ⟨duel, events, hreply, hmakes, hleaves⟩ := hdone reply hrun
      exact ⟨hkeeps, reply, duel, events, rfl, hreply, hmakes, hleaves⟩

end WordDuel
