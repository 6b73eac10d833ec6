import WordDuel.Service.Traffic
/-!
# WordDuel.Proofs.Traffic

**What a step of a call takes and does.** `Traffic.Next` lists the steps of which a call
is capable, each with what it takes; what is proved of all runs is proved from this list.

Three facts about whole runs need nothing else. A call that is answered with a failure has
changed nothing, in none of its steps: once a step of a call has changed what is stored or
announced, the call can only be answered with success. Whoever looks at a room is told what
was stored at a moment when the call had been made and not been answered. And a call that
is left alone comes to the same as if it were performed in one go.
-/

namespace WordDuel

theorem Call.opens_iff {call : Call} {room : RoomId} :
    call.opens room ↔ ∃ code player referee reply,
      call = ⟨.create room code player, referee, .answered (.ok reply)⟩ := by
  obtain ⟨request, referee, phase⟩ := call
  rw [opens.eq_def]
  constructor
  · intro hopens
    split at hopens
    · next created code player reply hrequest hphase =>
      obtain rfl := beq_iff_eq.1 hopens
      obtain rfl : request = _ := hrequest
      obtain rfl : phase = _ := hphase
      exact ⟨code, player, referee, reply, rfl⟩
    · cases hopens
  · rintro ⟨code, player, referee', reply, heq⟩
    obtain ⟨rfl, rfl, rfl⟩ := Call.mk.inj heq
    exact beq_iff_eq.2 rfl

namespace Traffic

variable {σ : Type}

/-! ### The steps -/

/-- The steps of which a call is capable. -/
inductive Next (service : Service σ) (t : Traffic σ) (i : Nat) : Call → CallStep σ → Prop
  /-- A room is not created. -/
  | refuse {room : RoomId} {code : String} {player : PlayerId} {referee : Referee}
    {failure : Failure}
    (refused : service.establish referee t.world room code player = .error failure) :
    Next service t i ⟨.create room code player, referee, .called⟩
      (t.onward (.answered (.error failure)))
  /-- A room is created. -/
  | establish {room : RoomId} {code : String} {player : PlayerId} {referee : Referee}
    {world : World σ} {duel : Duel} {events : List Event}
    (established : service.establish referee t.world room code player =
      .ok (world, duel, events)) :
    Next service t i ⟨.create room code player, referee, .called⟩
      { t.onward (.announcing duel events) with world }
  /-- An event of a new room is announced. -/
  | announce {room : RoomId} {code : String} {player : PlayerId} {referee : Referee}
    {duel : Duel} {event : Event} {events : List Event} :
    Next service t i ⟨.create room code player, referee, .announcing duel (event :: events)⟩
      { t.onward (.announcing duel events) with
        world := { t.world with sink := (t.world.sink.publish ⟨room, event⟩).1 } }
  /-- The creation of a room is answered. -/
  | welcome {room : RoomId} {code : String} {player : PlayerId} {referee : Referee}
    {duel : Duel} :
    Next service t i ⟨.create room code player, referee, .announcing duel []⟩
      (t.onward (.answered (.ok (.view (duel.viewFor player)))))
  /-- A room is looked at. -/
  | look {room : RoomId} {player : PlayerId} {referee : Referee} :
    Next service t i ⟨.get room player, referee, .called⟩
      (t.onward (.looked ((service.get t.world room player).map fun duel =>
        .view (duel.viewFor player))))
  /-- Who has looked at a room is answered. -/
  | tell {room : RoomId} {player : PlayerId} {referee : Referee} {result : Result Reply} :
    Next service t i ⟨.get room player, referee, .looked result⟩ (t.onward (.answered result))
  /-- A change arrives at the lock. -/
  | arrive {room : RoomId} {change : Change} {referee : Referee} {table : LockTable}
    (arrives : t.table.act? (.arrive i (roomLockKey room)) = some table) :
    Next service t i ⟨.change room change, referee, .called⟩ { t.onward .waiting with table }
  /-- A change gets the lock. -/
  | obtain {room : RoomId} {change : Change} {referee : Referee} {table : LockTable}
    (obtains : t.table.act? (.obtain i) = some table) :
    Next service t i ⟨.change room change, referee, .waiting⟩
      ⟨table, t.world, some ⟨i, room, referee, change⟩, .working .entered⟩
  /-- A change goes on under the lock. -/
  | work {room : RoomId} {change : Change} {referee : Referee} {stage : Stage}
    (running : ∀ result, stage ≠ .done result) :
    Next service t i ⟨.change room change, referee, .working stage⟩
      { t.onward (.working
          ((service.mutation room (change.move referee)).step t.world stage).2) with
        world := ((service.mutation room (change.move referee)).step t.world stage).1 }
  /-- A change lets go of the lock. -/
  | letGo {room : RoomId} {change : Change} {referee : Referee} {result : Result Duel}
    {table : LockTable} (letsGo : t.table.act? (.letGo i) = some table) :
    Next service t i ⟨.change room change, referee, .working (.done result)⟩
      { t.onward (.leaving (result.map change.reply)) with table }
  /-- A change is answered. -/
  | prune {room : RoomId} {change : Change} {referee : Referee} {result : Result Reply}
    {table : LockTable} (prunes : t.table.act? (.prune i) = some table) :
    Next service t i ⟨.change room change, referee, .leaving result⟩
      { t.onward (.answered result) with table }
  /-- A call has waited for too long. -/
  | giveUp {request : Request} {referee : Referee} {table : LockTable}
    (letsGo : t.table.act? (.letGo i) = some table) :
    Next service t i ⟨request, referee, .waiting⟩
      { t.onward (.leaving (.error (.refused (.roomBusy request.room)))) with table }

theorem next_of_next? {service : Service σ} {t : Traffic σ} {i : Nat} {call : Call}
    {step : CallStep σ} (h : t.next? service i call = some step) : Next service t i call step := by
  obtain ⟨request, referee, phase⟩ := call
  cases request with
  | create room code player =>
      simp only [next?] at h
      rw [create?.eq_def] at h
      split at h
      · split at h
        · next failure hrefused =>
          obtain rfl := Option.some.inj h
          exact .refuse hrefused
        · next world duel events hestablished =>
          obtain rfl := Option.some.inj h
          exact .establish hestablished
      · obtain rfl := Option.some.inj h
        exact .welcome
      · obtain rfl := Option.some.inj h
        exact .announce
      · cases h
  | get room player =>
      simp only [next?] at h
      rw [get?.eq_def] at h
      split at h
      · obtain rfl := Option.some.inj h
        exact .look
      · obtain rfl := Option.some.inj h
        exact .tell
      · cases h
  | change room change =>
      simp only [next?] at h
      rw [change?.eq_def] at h
      split at h
      · obtain ⟨table, harrives, rfl⟩ := Option.map_eq_some_iff.1 h
        exact .arrive harrives
      · obtain ⟨table, hobtains, rfl⟩ := Option.map_eq_some_iff.1 h
        exact .obtain hobtains
      · obtain ⟨table, hletsGo, rfl⟩ := Option.map_eq_some_iff.1 h
        exact .letGo hletsGo
      · next stage hrunning =>
        obtain rfl := Option.some.inj h
        exact .work hrunning
      · obtain ⟨table, hprunes, rfl⟩ := Option.map_eq_some_iff.1 h
        exact .prune hprunes
      · cases h

theorem next_of_giveUp? {service : Service σ} {t : Traffic σ} {i : Nat} {call : Call}
    {step : CallStep σ} (h : t.giveUp? i call = some step) : Next service t i call step := by
  obtain ⟨request, referee, phase⟩ := call
  rw [giveUp?.eq_def] at h
  split at h
  · next hphase =>
    obtain ⟨table, hletsGo, rfl⟩ := Option.map_eq_some_iff.1 h
    subst hphase
    exact .giveUp hletsGo
  · cases h

/-- A turn is taken in the room of the call. -/
theorem Next.turn_room {service : Service σ} {t : Traffic σ} {i : Nat} {call : Call}
    {step : CallStep σ} (h : Next service t i call step) :
    ∀ turn ∈ step.turn?, turn.room = call.request.room := by
  intro turn hturn
  cases h with
  | obtain _ =>
      obtain rfl := Option.some.inj hturn
      rfl
  | _ => cases hturn

/-- Somebody calls, or a call takes a step. -/
theorem act?_cases {service : Service σ} {t t' : Traffic σ} {act : TrafficAct}
    (h : t.act? service act = some t') :
    (∃ request referee, act = .call request referee ∧ t.admits request ∧
      t' = { t with calls := t.calls ++ [⟨request, referee, .called⟩] }) ∨
    ∃ i call step, act.caller? = some i ∧ t.calls[i]? = some call ∧
      Next service t i call step ∧ t' = t.take i step := by
  cases act with
  | call request referee =>
      rw [act?.eq_def] at h
      dsimp only at h
      split at h
      · next hadmits => exact .inl ⟨request, referee, rfl, hadmits, (Option.some.inj h).symm⟩
      · cases h
  | proceed i =>
      obtain ⟨step, hstep, rfl⟩ := Option.map_eq_some_iff.1 h
      obtain ⟨call, hcall, hnext⟩ := Option.bind_eq_some_iff.1 hstep
      exact .inr ⟨i, call, step, rfl, hcall, next_of_next? hnext, rfl⟩
  | giveUp i =>
      obtain ⟨step, hstep, rfl⟩ := Option.map_eq_some_iff.1 h
      obtain ⟨call, hcall, hgiveUp⟩ := Option.bind_eq_some_iff.1 hstep
      exact .inr ⟨i, call, step, rfl, hcall, next_of_giveUp? hgiveUp, rfl⟩

theorem calls_concat (calls : List Call) (call : Call) (j : Nat) :
    (calls ++ [call])[j]? = if j = calls.length then some call else calls[j]? := by
  rcases Nat.lt_trichotomy j calls.length with hlt | heq | hgt
  · rw [List.getElem?_append_left hlt, if_neg (Nat.ne_of_lt hlt)]
  · simp [heq]
  · have hout : (calls ++ [call]).length ≤ j := by
      rw [List.length_append]
      exact hgt
    rw [if_neg (Nat.ne_of_gt hgt), List.getElem?_eq_none (Nat.le_of_lt hgt),
      List.getElem?_eq_none hout]

theorem calls_take {t : Traffic σ} {i : Nat} {call : Call} (hcall : t.calls[i]? = some call)
    (step : CallStep σ) (j : Nat) :
    (t.take i step).calls[j]? =
      if j = i then some { call with phase := step.phase } else t.calls[j]? := by
  show (t.calls.modify i _)[j]? = _
  by_cases hj : j = i
  · subst hj
    simp [hcall]
  · rw [if_neg hj, List.getElem?_modify_ne _ _ (Ne.symm hj)]

/-- Calls are made and take their steps; what is asked and who judges stays. -/
theorem calls_act? {service : Service σ} {t t' : Traffic σ} {act : TrafficAct}
    (h : t.act? service act = some t') {i : Nat} {call : Call} (hcall : t.calls[i]? = some call) :
    t'.calls[i]? = some call ∨ ∃ step, Next service t i call step ∧
      t'.calls[i]? = some { call with phase := step.phase } := by
  rcases act?_cases h with ⟨request, referee, -, -, rfl⟩ | ⟨j, call', step, -, hcall', hnext, rfl⟩
  · refine .inl ?_
    show (t.calls ++ [_])[i]? = some call
    rw [List.getElem?_append_left (List.getElem?_eq_some_iff.1 hcall).1, hcall]
  · rw [calls_take hcall']
    by_cases hi : i = j
    · subst hi
      obtain rfl := Option.some.inj (hcall.symm.trans hcall')
      exact .inr ⟨step, hnext, if_pos rfl⟩
    · exact .inl (by rw [if_neg hi, hcall])

/-- Where a call comes from that is there after an act. -/
theorem calls_of_act? {service : Service σ} {t t' : Traffic σ} {act : TrafficAct}
    (h : t.act? service act = some t') {i : Nat} {call : Call} (hcall : t'.calls[i]? = some call) :
    t.calls[i]? = some call ∨ call.phase = .called ∨
      ∃ before step, t.calls[i]? = some before ∧ Next service t i before step ∧
        call = { before with phase := step.phase } := by
  rcases act?_cases h with ⟨request, referee, -, -, rfl⟩ | ⟨j, before, step, -, hbefore, hnext, rfl⟩
  · rcases Nat.lt_or_ge i t.calls.length with hlt | hge
    · exact .inl ((List.getElem?_append_left hlt).symm.trans hcall)
    · have hnew := (List.getElem?_append_right hge).symm.trans hcall
      have hmem := List.mem_of_getElem? hnew
      rw [List.mem_singleton.1 hmem]
      exact .inr (.inl rfl)
  · rw [calls_take hbefore] at hcall
    split at hcall
    · next hi =>
      subst hi
      exact .inr (.inr ⟨before, step, hbefore, hnext, (Option.some.inj hcall).symm⟩)
    · exact .inl hcall

/-! ### Runs -/

theorem run?_cons (service : Service σ) (t : Traffic σ) (act : TrafficAct)
    (acts : List TrafficAct) :
    t.run? service (act :: acts) = (t.act? service act).bind fun t' => t'.run? service acts := rfl

theorem run?_append (service : Service σ) (t : Traffic σ) (earlier later : List TrafficAct) :
    t.run? service (earlier ++ later) =
      (t.run? service earlier).bind fun t' => t'.run? service later :=
  List.foldlM_append

/-- What holds at first and is kept by everything that can happen holds after a run. -/
theorem run?_induction {service : Service σ} {P : Traffic σ → Prop}
    (hact : ∀ t t' act, P t → t.act? service act = some t' → P t') {t t' : Traffic σ}
    {acts : List TrafficAct} (hstart : P t) (hrun : t.run? service acts = some t') : P t' := by
  induction acts generalizing t with
  | nil =>
      obtain rfl := Option.some.inj hrun
      exact hstart
  | cons act acts ih =>
      rw [run?_cons] at hrun
      obtain ⟨t₁, hfirst, hrest⟩ := Option.bind_eq_some_iff.1 hrun
      exact ih (hact t t₁ act hstart hfirst) hrest

/-- What has been asked, and who judges it, stays. -/
theorem asked_run? {service : Service σ} {t t' : Traffic σ} {acts : List TrafficAct} {i : Nat}
    {request : Request} {referee : Referee} {phase : CallPhase}
    (hcall : t.calls[i]? = some ⟨request, referee, phase⟩)
    (hrun : t.run? service acts = some t') :
    ∃ phase, t'.calls[i]? = some ⟨request, referee, phase⟩ := by
  refine run?_induction (P := fun t => ∃ phase, t.calls[i]? = some ⟨request, referee, phase⟩)
    (fun t t' act hasked hact => ?_) ⟨phase, hcall⟩ hrun
  obtain ⟨phase, hcall⟩ := hasked
  rcases calls_act? hact hcall with hsame | ⟨step, -, hmoved⟩
  · exact ⟨phase, hsame⟩
  · exact ⟨step.phase, hmoved⟩

/-! ### A failed call has no effect -/

end Traffic

/-- A change that has been committed. -/
def Stage.succeeds : Stage → Bool
  | .announcing _ _ | .done (.ok _) => true
  | _ => false

/-- A call that has had an effect, or has been answered with success. -/
def CallPhase.succeeds : CallPhase → Bool
  | .announcing _ _ | .leaving (.ok _) | .answered (.ok _) => true
  | .working stage => stage.succeeds
  | _ => false

namespace Mutation

variable {σ : Type} (m : Mutation σ)

/-- A stage changes nothing, or the change is committed after it. -/
theorem world_step (w : World σ) (stage : Stage) :
    (m.step w stage).1 = w ∨ (m.step w stage).2.succeeds := by
  cases stage with
  | entered =>
      refine .inl ?_
      rw [step]
      split <;> rfl
  | opened u =>
      refine .inl ?_
      rw [step]
      split <;> rfl
  | loaded u duel =>
      refine .inl ?_
      rw [step]
      split <;> rfl
  | judged u duel events =>
      rw [step]
      split
      · exact .inr rfl
      · exact .inl rfl
  | announcing duel events => cases events <;> exact .inr rfl
  | done result => exact .inl rfl

theorem succeeds_step (w : World σ) {stage : Stage} (h : stage.succeeds) :
    (m.step w stage).2.succeeds := by
  cases stage with
  | announcing duel events => cases events <;> rfl
  | done result => exact h
  | _ => cases h

end Mutation

namespace Traffic

/-- A step of a call changes neither what is stored nor what is announced, or the call can
only succeed after it. -/
theorem Next.world_eq {service : Service σ} {t : Traffic σ} {i : Nat} {call : Call}
    {step : CallStep σ} (h : Next service t i call step) :
    step.world = t.world ∨ step.phase.succeeds := by
  cases h with
  | establish _ => exact .inr rfl
  | announce => exact .inr rfl
  | work _ => exact (service.mutation _ _).world_step t.world _
  | _ => exact .inl rfl

theorem Next.succeeds {service : Service σ} {t : Traffic σ} {i : Nat} {call : Call}
    {step : CallStep σ} (h : Next service t i call step) (hsucceeds : call.phase.succeeds) :
    step.phase.succeeds := by
  cases h with
  | announce => rfl
  | welcome => rfl
  | work _ => exact (service.mutation _ _).succeeds_step t.world hsucceeds
  | @letGo room change referee result table _ =>
      cases result with
      | ok duel => rfl
      | error failure => cases hsucceeds
  | @prune room change referee result table _ =>
      cases result with
      | ok reply => rfl
      | error failure => cases hsucceeds
  | _ => cases hsucceeds

theorem answer?_eq_some_iff {t : Traffic σ} {i : Nat} {result : Result Reply} :
    t.answer? i = some result ↔
      ∃ request referee, t.calls[i]? = some ⟨request, referee, .answered result⟩ := by
  rw [answer?, Option.bind_eq_some_iff]
  constructor
  · rintro ⟨⟨request, referee, phase⟩, hcall, hphase⟩
    split at hphase
    · next result' hanswered =>
      obtain rfl := Option.some.inj hphase
      obtain rfl : phase = .answered result' := hanswered
      exact ⟨request, referee, hcall⟩
    · cases hphase
  · rintro ⟨request, referee, hcall⟩
    exact ⟨_, hcall, rfl⟩

/-- A call that has had an effect cannot fail any more. -/
theorem succeeds_run? {service : Service σ} {t t' : Traffic σ} {acts : List TrafficAct} {i : Nat}
    {call : Call} (hcall : t.calls[i]? = some call) (hsucceeds : call.phase.succeeds)
    (hrun : t.run? service acts = some t') :
    ∃ call : Call, t'.calls[i]? = some call ∧ call.phase.succeeds := by
  refine run?_induction
    (P := fun t => ∃ call : Call, t.calls[i]? = some call ∧ call.phase.succeeds) ?_
    ⟨call, hcall, hsucceeds⟩ hrun
  rintro t t' act ⟨call, hcall, hsucceeds⟩ hact
  rcases calls_act? hact hcall with hsame | ⟨step, hnext, hmoved⟩
  · exact ⟨call, hsame, hsucceeds⟩
  · exact ⟨_, hmoved, hnext.succeeds hsucceeds⟩

/-- A call that is answered with a failure has changed nothing in any of its steps. -/
theorem world_eq_of_failed {service : Service σ} {t₁ t₂ t : Traffic σ} {act : TrafficAct} {i : Nat}
    {later : List TrafficAct} {failure : Failure} (hact : t₁.act? service act = some t₂)
    (hcaller : act.caller? = some i) (hlater : t₂.run? service later = some t)
    (hanswer : t.answer? i = some (.error failure)) : t₂.world = t₁.world := by
  rcases act?_cases hact with ⟨request, referee, rfl, -, -⟩ | ⟨j, call, step, hj, hcall, hnext, rfl⟩
  · cases hcaller
  · obtain rfl : i = j := Option.some.inj (hcaller.symm.trans hj)
    rcases hnext.world_eq with hsame | hsucceeds
    · exact hsame
    · -- After an effect the call can only succeed, and it has failed.
      obtain ⟨call', hcall', hsucceeds'⟩ :=
        succeeds_run? ((calls_take hcall step i).trans (if_pos rfl)) hsucceeds hlater
      obtain ⟨request, referee, hanswered⟩ := answer?_eq_some_iff.1 hanswer
      obtain rfl := Option.some.inj (hcall'.symm.trans hanswered)
      cases hsucceeds'

/-! ### Looking at a room -/

end Traffic

/-- What a call is answered or, having read its room, is about to be answered. -/
def CallPhase.told? : CallPhase → Option (Result Reply)
  | .looked result | .answered result => some result
  | _ => none

namespace Traffic

/-- What a call is told, if it is known by now. -/
def told? (t : Traffic σ) (i : Nat) : Option (Result Reply) :=
  t.calls[i]?.bind fun call => call.phase.told?

theorem told?_of_phase {t : Traffic σ} {i : Nat} {call : Call} (hcall : t.calls[i]? = some call) :
    t.told? i = call.phase.told? := by
  rw [told?, hcall]
  rfl

/-- What has been read or answered does not change any more. -/
theorem Next.told {service : Service σ} {t : Traffic σ} {i : Nat} {call : Call}
    {step : CallStep σ} (h : Next service t i call step) {result : Result Reply}
    (htold : call.phase.told? = some result) : step.phase.told? = some result := by
  cases h with
  | tell => exact htold
  | _ => cases htold

theorem told?_run? {service : Service σ} {t t' : Traffic σ} {acts : List TrafficAct} {i : Nat}
    {result : Result Reply} (htold : t.told? i = some result)
    (hrun : t.run? service acts = some t') : t'.told? i = some result := by
  refine run?_induction (P := fun t => t.told? i = some result) (fun t t' act htold hact => ?_)
    htold hrun
  obtain ⟨call, hcall, hphase⟩ := Option.bind_eq_some_iff.1 htold
  rcases calls_act? hact hcall with hsame | ⟨step, hnext, hmoved⟩
  · rw [told?_of_phase hsame, hphase]
  · rw [told?_of_phase hmoved]
    exact hnext.told hphase

/-- The step in which a room is read. -/
theorem looks_of_act? {service : Service σ} {t t' : Traffic σ} {act : TrafficAct}
    (hact : t.act? service act = some t') {i : Nat} {room : RoomId} {player : PlayerId}
    {referee : Referee} {phase : CallPhase} {result : Result Reply}
    (hcall : t'.calls[i]? = some ⟨.get room player, referee, phase⟩)
    (htold : phase.told? = some result) :
    t.told? i = some result ∨
      t.calls[i]? = some ⟨.get room player, referee, .called⟩ ∧
        result = (service.get t.world room player).map fun duel => .view (duel.viewFor player) := by
  rcases calls_of_act? hact hcall with hsame | hcalled | ⟨before, step, hbefore, hnext, heq⟩
  · exact .inl ((told?_of_phase hsame).trans htold)
  · obtain rfl : phase = .called := hcalled
    cases htold
  · obtain ⟨hrequest, hreferee, rfl⟩ := Call.mk.inj heq
    cases hnext with
    | look =>
        cases hrequest
        cases hreferee
        exact .inr ⟨hbefore, (Option.some.inj htold).symm⟩
    | tell => exact .inl ((told?_of_phase hbefore).trans htold)
    | giveUp _ => cases htold
    | _ => cases hrequest

/-- Who looks at a room is told what was stored when the call had been made and not been
answered. -/
theorem looked_at {service : Service σ} {t t' : Traffic σ} {acts : List TrafficAct}
    (hrun : t.run? service acts = some t') {i : Nat} {room : RoomId} {player : PlayerId}
    {referee : Referee} {result : Result Reply} (hbefore : t.told? i = none)
    (hcall : t'.calls[i]? = some ⟨.get room player, referee, .answered result⟩) :
    ∃ earlier later during, acts = earlier ++ later ∧ t.run? service earlier = some during ∧
      during.calls[i]? = some ⟨.get room player, referee, .called⟩ ∧
      result =
        (service.get during.world room player).map fun duel => .view (duel.viewFor player) := by
  induction acts generalizing t with
  | nil =>
      obtain rfl := Option.some.inj hrun
      cases hbefore.symm.trans (told?_of_phase hcall)
  | cons act acts ih =>
      rw [run?_cons] at hrun
      obtain ⟨t₁, hfirst, hrest⟩ := Option.bind_eq_some_iff.1 hrun
      -- The room is read by this act, or later.
      cases htold : t₁.told? i with
      | none =>
          obtain ⟨earlier, later, during, rfl, hearlier, hduring, hresult⟩ := ih hrest htold
          refine ⟨act :: earlier, later, during, rfl, ?_, hduring, hresult⟩
          rw [run?_cons, hfirst]
          exact hearlier
      | some result' =>
          obtain ⟨⟨request, referee', phase⟩, hcall₁, hphase⟩ := Option.bind_eq_some_iff.1 htold
          obtain ⟨phase', hlast⟩ := asked_run? hcall₁ hrest
          obtain ⟨rfl, rfl, -⟩ := Call.mk.inj (Option.some.inj (hcall.symm.trans hlast))
          obtain rfl : result' = result :=
            Option.some.inj ((told?_run? htold hrest).symm.trans (told?_of_phase hcall))
          rcases looks_of_act? hfirst hcall₁ hphase with hread | ⟨hcalled, hresult⟩
          · cases hbefore.symm.trans hread
          · exact ⟨[], act :: acts, t, rfl, rfl, hcalled, hresult⟩

/-! ### A call that is left alone -/

end Traffic

/-- How a call stands to what would come of it if it were performed at once, in a world as
it was when the call was made. -/
def Call.Heads (service : Service σ) (made now : World σ) (call : Call) : Prop :=
  match call.request, call.phase with
  | _, .called | .change _ _, .waiting => now = made
  | .create room _ player, .announcing duel events =>
    ({ now with sink := now.sink.publishAll room events }, .ok (.view (duel.viewFor player))) =
      service.perform call.referee (fun _ => .granted) made call.request
  | .change room change, .working stage =>
    let done := (service.mutation room (change.move call.referee)).resume now stage
    (done.1, done.2.map change.reply) =
      service.perform call.referee (fun _ => .granted) made call.request
  | request, .looked result | request, .leaving result | request, .answered result =>
    ∃ grant, (grant = .granted ∨ grant = .late) ∧
      (now, result) = service.perform call.referee (fun _ => grant) made request
  | _, _ => False

namespace Traffic

theorem Next.heads {service : Service σ} {t : Traffic σ} {i : Nat} {call : Call}
    {step : CallStep σ} (h : Next service t i call step) {made : World σ}
    (hheads : call.Heads service made t.world) :
    { call with phase := step.phase }.Heads service made step.world := by
  cases h with
  | @refuse room code player referee failure hrefused =>
      obtain rfl : t.world = made := hheads
      refine ⟨.granted, .inl rfl, ?_⟩
      simp [Service.perform, Service.create, hrefused, onward, Except.map]
  | @establish room code player referee world duel events hestablished =>
      obtain rfl : t.world = made := hheads
      show _ = service.perform referee _ t.world _
      simp [Service.perform, Service.create, hestablished, Except.map]
  | announce => exact hheads
  | welcome => exact ⟨.granted, .inl rfl, hheads⟩
  | look =>
      obtain rfl : t.world = made := hheads
      exact ⟨.granted, .inl rfl, rfl⟩
  | tell => exact hheads
  | arrive _ => exact hheads
  | @obtain room change referee table _ =>
      obtain rfl : t.world = made := hheads
      rfl
  | @work room change referee stage _ =>
      show _ = service.perform referee _ made _
      rw [Mutation.resume_step]
      exact hheads
  | letGo _ => exact ⟨.granted, .inl rfl, hheads⟩
  | prune _ => exact hheads
  | @giveUp request referee table _ =>
      -- Only changes wait for a lock.
      cases request with
      | create room code player => exact hheads.elim
      | get room player => exact hheads.elim
      | change room change =>
          obtain rfl : t.world = made := hheads
          exact ⟨.late, .inr rfl, rfl⟩

theorem heads_run? {service : Service σ} {made : World σ} {t t' : Traffic σ}
    {acts : List TrafficAct} {i : Nat} {request : Request} {referee : Referee} {phase : CallPhase}
    (hrun : t.run? service acts = some t') (halone : ∀ act ∈ acts, act.caller? = some i)
    (hcall : t.calls[i]? = some ⟨request, referee, phase⟩)
    (hheads : Call.Heads service made t.world ⟨request, referee, phase⟩) :
    ∃ phase, t'.calls[i]? = some ⟨request, referee, phase⟩ ∧
      Call.Heads service made t'.world ⟨request, referee, phase⟩ := by
  induction acts generalizing t phase with
  | nil =>
      obtain rfl := Option.some.inj hrun
      exact ⟨phase, hcall, hheads⟩
  | cons act acts ih =>
      rw [run?_cons] at hrun
      obtain ⟨t₁, hact, hrest⟩ := Option.bind_eq_some_iff.1 hrun
      have hcaller := halone act List.mem_cons_self
      rcases act?_cases hact with
        ⟨request', referee', rfl, -, -⟩ | ⟨j, call, step, hj, hcall', hnext, rfl⟩
      · cases hcaller
      · obtain rfl : i = j := Option.some.inj (hcaller.symm.trans hj)
        obtain rfl := Option.some.inj (hcall.symm.trans hcall')
        exact ih hrest (fun act hmem => halone act (List.mem_cons_of_mem _ hmem))
          ((calls_take hcall step i).trans (if_pos rfl)) (hnext.heads hheads)

/-- A call that is left alone comes to what it is when performed at once, with the lock or
too late for it. -/
theorem perform_of_alone {service : Service σ} {t t' : Traffic σ} {acts : List TrafficAct} {i : Nat}
    {request : Request} {referee : Referee} {result : Result Reply}
    (hcall : t.calls[i]? = some ⟨request, referee, .called⟩)
    (hrun : t.run? service acts = some t') (halone : ∀ act ∈ acts, act.caller? = some i)
    (hanswer : t'.answer? i = some result) :
    ∃ grant, (grant = .granted ∨ grant = .late) ∧
      (t'.world, result) = service.perform referee (fun _ => grant) t.world request := by
  have hcalled : Call.Heads service t.world t.world ⟨request, referee, .called⟩ := by
    cases request <;> rfl
  obtain ⟨phase, hlast, hheads⟩ := heads_run? hrun halone hcall hcalled
  obtain ⟨request', referee', hanswered⟩ := answer?_eq_some_iff.1 hanswer
  obtain ⟨rfl, rfl, rfl⟩ := Call.mk.inj (Option.some.inj (hlast.symm.trans hanswered))
  cases request with
  | create room code player => exact hheads
  | get room player => exact hheads
  | change room change => exact hheads

end Traffic

end WordDuel
