import WordDuel.Proofs.Scene
import WordDuel.Proofs.Structure
/-!
# WordDuel.Proofs.Serial

**Calls take turns.** However the steps of any number of calls are mixed, in every room the
changes have the effect of being made one after the other, in the order in which they got
the lock: the stored duel, the answers and the announced events are those of the course of
the duel under these attempts. A change that waited in vain has no effect, and whoever
looks at a room is told what was stored at some moment of the call.

The invariant is that of the locks together with that of every scene. A step touches the
scene of one room, so that the others need not be looked at.
-/

namespace WordDuel

/-- The events among some envelopes that are about a room. -/
def heardIn (published : List Envelope) (room : RoomId) : List Event :=
  (published.filter fun e => e.room == room).map Envelope.event

theorem heardIn_append (published : List Envelope) (room other : RoomId) (news : List Event) :
    heardIn (published ++ news.map (⟨room, ·⟩)) other =
      heardIn published other ++ if other = room then news else [] := by
  rw [heardIn, heardIn, List.filter_append, List.map_append]
  congr 1
  by_cases hroom : other = room
  · subst hroom
    rw [if_pos rfl]
    induction news with
    | nil => rfl
    | cons event news ih => simpa using ih
  · have hne : (room == other) = false := beq_eq_false_iff_ne.2 (Ne.symm hroom)
    rw [if_neg hroom]
    induction news with
    | nil => rfl
    | cons event news ih => simpa [hne] using ih

namespace Traffic

/-! ### The scenes of traffic -/

/-- What goes on in a room, given what has been announced. -/
def scene (t : Traffic Store.Memory) (published : List Envelope) (room : RoomId) : Scene where
  calls i := t.calls[i]?.filter fun call => call.request.room == room
  stored := t.world.stored.get? room
  heard := heardIn published room
  turns := t.turnsIn room

theorem calls_scene_eq_some {t : Traffic Store.Memory} {published : List Envelope} {room : RoomId}
    {i : Nat} {call : Call} :
    (t.scene published room).calls i = some call ↔
      t.calls[i]? = some call ∧ call.request.room = room := by
  show t.calls[i]?.filter _ = some call ↔ _
  rw [Option.filter_eq_some_iff, beq_iff_eq]

theorem turnsIn_take {t : Traffic σ} {i : Nat} {step : CallStep σ} {room : RoomId}
    (hturn : ∀ turn ∈ step.turn?, turn.room = room) (other : RoomId) :
    (t.take i step).turnsIn other =
      t.turnsIn other ++ if other = room then step.turn?.toList else [] := by
  show (t.turns ++ step.turn?.toList).filter _ = _
  rw [List.filter_append, turnsIn]
  congr 1
  cases hstep : step.turn? with
  | none => simp
  | some turn =>
      have hturn := hturn turn hstep
      by_cases hroom : other = room
      · simp [hroom, hturn]
      · simp [hroom, hturn, Ne.symm hroom]

/-- The scene of the room of a call that takes a step. -/
theorem scene_take {t : Traffic Store.Memory} {published : List Envelope} {i : Nat} {call : Call}
    {step : CallStep Store.Memory} (hcall : t.calls[i]? = some call)
    (hturn : ∀ turn ∈ step.turn?, turn.room = call.request.room) (news : List Event) :
    (t.take i step).scene (published ++ news.map (⟨call.request.room, ·⟩)) call.request.room =
      (t.scene published call.request.room).after i call step call.request.room news := by
  rw [scene, Scene.after, heardIn_append, if_pos rfl, turnsIn_take hturn, if_pos rfl]
  congr 1
  funext j
  rw [calls_take hcall, Scene.calls_withCall]
  split
  · simp
  · rfl

/-- The scenes of other rooms stay as they are. -/
theorem scene_take_of_ne {t : Traffic Store.Memory} {published : List Envelope} {i : Nat}
    {call : Call} {step : CallStep Store.Memory} {room : RoomId} (hcall : t.calls[i]? = some call)
    (hturn : ∀ turn ∈ step.turn?, turn.room = call.request.room) {news : List Event}
    (htouched : t.world.Touched step.world call.request.room news)
    (hroom : room ≠ call.request.room) :
    (t.take i step).scene (published ++ news.map (⟨call.request.room, ·⟩)) room =
      t.scene published room := by
  rw [scene, scene, heardIn_append, if_neg hroom, turnsIn_take hturn, if_neg hroom,
    List.append_nil, List.append_nil]
  congr 1
  · funext j
    rw [calls_take hcall]
    split
    · next hj =>
      have hne : (call.request.room == room) = false := beq_eq_false_iff_ne.2 (Ne.symm hroom)
      simp [hj, hcall, Option.filter, hne]
    · rfl
  · exact htouched.stored room hroom

/-- The scene of the room of a new call. -/
theorem scene_call (t : Traffic Store.Memory) (published : List Envelope) (call : Call) :
    ({ t with calls := t.calls ++ [call] } : Traffic Store.Memory).scene published
        call.request.room =
      (t.scene published call.request.room).withCall t.calls.length call := by
  rw [scene, scene, Scene.withCall]
  congr 1
  funext j
  rw [calls_concat]
  split
  · simp
  · rfl

theorem scene_call_of_ne (t : Traffic Store.Memory) (published : List Envelope) (call : Call)
    {room : RoomId} (hroom : room ≠ call.request.room) :
    ({ t with calls := t.calls ++ [call] } : Traffic Store.Memory).scene published room =
      t.scene published room := by
  rw [scene, scene]
  congr 1
  funext j
  rw [calls_concat]
  split
  · next hj =>
    have hne : (call.request.room == room) = false := beq_eq_false_iff_ne.2 (Ne.symm hroom)
    simp [hj, Option.filter, hne]
  · rfl

/-! ### The invariant -/

/-- What is true of traffic at any time, given the sink at the start and what has been
announced since. -/
structure Inv (sink : Sink) (published : List Envelope) (t : Traffic Store.Memory) : Prop where
  locked : t.Locked
  heard : t.world.sink.leaves = sink.leaves.map fun leaf => (leaf.1, leaf.2 ++ published)
  scenes : ∀ room, (t.scene published room).Inv room

theorem inv_start (world : World Store.Memory) : Inv world.sink [] (start world) where
  locked := locked_start world
  heard := by simp [start]
  scenes room := by
    refine .unborn ?_ ?_ rfl rfl
    · intro i call hcall
      cases (calls_scene_eq_some.1 hcall).1
    · intro i j hi
      cases hi

/-- A room that can be asked for is open. -/
theorem Inv.exists_open {sink : Sink} {published : List Envelope} {t : Traffic Store.Memory}
    (h : Inv sink published t) {room : RoomId}
    (hopens : t.calls.any fun call => call.opens room) :
    ∃ o, (t.scene published room).Open room o := by
  obtain ⟨call, hmem, hcall⟩ := List.any_eq_true.1 hopens
  obtain ⟨c, hc⟩ := List.mem_iff_getElem?.1 hmem
  obtain ⟨code, player, referee, reply, rfl⟩ := Call.opens_iff.1 hcall
  obtain ⟨duel, events, hopen, -⟩ :=
    (h.scenes room).of_answered (calls_scene_eq_some.2 ⟨hc, rfl⟩)
  exact ⟨_, hopen⟩

/-- Whoever calls leaves the scene of the room as it should be. -/
theorem Inv.call {sink : Sink} {published : List Envelope} {t : Traffic Store.Memory}
    (h : Inv sink published t) {request : Request} (referee : Referee)
    (hadmits : t.admits request) :
    ((t.scene published request.room).withCall t.calls.length
      ⟨request, referee, .called⟩).Inv request.room := by
  have hnew : ∀ room, (t.scene published room).calls t.calls.length = none := by
    intro room
    show t.calls[t.calls.length]?.filter _ = none
    simp
  cases request with
  | create room code player =>
      -- An id that no call has used has no history, so that its creation is the first call.
      have hnone : ∀ i, (t.scene published room).calls i = none := by
        intro i
        cases hcall : (t.scene published room).calls i with
        | none => rfl
        | some call =>
            obtain ⟨hi, hroom⟩ := calls_scene_eq_some.1 hcall
            have hunused := List.all_eq_true.1 hadmits call (List.mem_of_getElem? hi)
            exact (of_decide_eq_true hunused hroom).elim
      obtain ⟨hsilent, hidle⟩ := (h.scenes room).of_unused hnone
      refine .unborn_of (if_pos rfl) (.inl rfl) (Scene.withCall_only _ ?_) hsilent hidle
      intro i hi
      cases (hnone i).symm.trans (Option.eq_some_of_isSome hi)
  | get room player =>
      obtain ⟨o, hopen⟩ := h.exists_open hadmits
      have hi : t.calls.length ≠ o.call := hopen.ne_of_none (hnew room)
      refine .opened (hopen.withCall hi (by simp) rfl ?_)
      exact hopen.serial.withCall (by simp [hnew]) (by simp)
  | change room change =>
      obtain ⟨o, hopen⟩ := h.exists_open hadmits
      have hi : t.calls.length ≠ o.call := hopen.ne_of_none (hnew room)
      refine .opened (hopen.withCall hi (by simp) rfl ?_)
      exact hopen.serial.called (hnew room) change referee

/-- A step of a call touches only its room, and leaves the scene there as it should be. -/
theorem Inv.next {exclusive : Bool} {sink : Sink} {published : List Envelope}
    {t : Traffic Store.Memory} (h : Inv sink published t) {i : Nat} {call : Call}
    {step : CallStep Store.Memory} (hcall : t.calls[i]? = some call)
    (hnext : Next (Service.inMemory exclusive) t i call step) :
    ∃ news, t.world.Touched step.world call.request.room news ∧
      ((t.scene published call.request.room).after i call step call.request.room news).Inv
        call.request.room := by
  have halone : ∀ table, call.phase = .waiting → t.table.act? (.obtain i) = some table →
      ∀ j call' stage, (t.scene published call.request.room).calls j = some call' →
        call'.phase ≠ .working stage := by
    intro table hwaiting hobtains j call' stage hj
    obtain ⟨hcall', hroom⟩ := calls_scene_eq_some.1 hj
    exact h.locked.not_working hcall hwaiting hobtains hcall' hroom
  exact (h.scenes call.request.room).next hnext (calls_scene_eq_some.2 ⟨hcall, rfl⟩) rfl rfl halone

/-- Everything that can happen keeps the invariant, with more to announce maybe. -/
theorem Inv.act? {exclusive : Bool} {sink : Sink} {published : List Envelope}
    {t t' : Traffic Store.Memory} {act : TrafficAct} (h : Inv sink published t)
    (hact : t.act? (Service.inMemory exclusive) act = some t') :
    ∃ news, Inv sink (published ++ news) t' := by
  have hlocked := h.locked.act? hact
  rcases act?_cases hact with
    ⟨request, referee, -, hadmits, rfl⟩ | ⟨i, call, step, -, hcall, hnext, rfl⟩
  · refine ⟨[], hlocked, ?_, ?_⟩
    · rw [List.append_nil]
      exact h.heard
    · intro room
      rw [List.append_nil]
      by_cases hroom : room = request.room
      · subst hroom
        have hscene := t.scene_call published ⟨request, referee, .called⟩
        rw [hscene]
        exact h.call referee hadmits
      · rw [scene_call_of_ne t published ⟨request, referee, .called⟩ hroom]
        exact h.scenes room
  · obtain ⟨news, htouched, hscene⟩ := h.next hcall hnext
    refine ⟨news.map (⟨call.request.room, ·⟩), hlocked, ?_, ?_⟩
    · show step.world.sink.leaves = _
      rw [htouched.sink, Sink.leaves_publishAll, h.heard, List.map_map]
      simp [Function.comp_def]
    · intro room
      by_cases hroom : room = call.request.room
      · subst hroom
        rw [scene_take hcall hnext.turn_room news]
        exact hscene
      · rw [scene_take_of_ne hcall hnext.turn_room htouched hroom]
        exact h.scenes room

/-- What is true at the start of traffic is true after any run. -/
theorem Inv.of_run? {exclusive : Bool} {world : World Store.Memory} {acts : List TrafficAct}
    {t : Traffic Store.Memory}
    (hrun : (start world).run? (Service.inMemory exclusive) acts = some t) :
    ∃ published, Inv world.sink published t := by
  refine run?_induction (P := fun t => ∃ published, Inv world.sink published t)
    (fun t t' act hinv hact => ?_) ⟨[], inv_start world⟩ hrun
  obtain ⟨published, hinv⟩ := hinv
  obtain ⟨news, hinv'⟩ := hinv.act? hact
  exact ⟨published ++ news, hinv'⟩

/-! ### One change after the other -/

/-- The changes of a room are made one after the other in the order of their turns, given
the duel and the events with which the room was created and all that has been announced. -/
structure TurnByTurn (t : Traffic Store.Memory) (published : List Envelope) (room : RoomId)
    (duel : Duel) (events : List Event) : Prop where
  /-- Every turn is that of a change of the room. -/
  asked : ∀ turn ∈ t.turnsIn room, ∃ phase,
    t.calls[turn.call]? = some ⟨.change room turn.ply.change, turn.ply.referee, phase⟩
  /-- No change has two turns. -/
  nodup : ((t.turnsIn room).map Turn.call).Nodup
  /-- A change is answered as it would be after the turns before its own. If it had none,
  the answer is that the room is busy. -/
  answered : ∀ (i : Nat) (change : Change) (referee : Referee) (result : Result Reply),
    t.calls[i]? = some ⟨.change room change, referee, .answered result⟩ →
      ((∀ turn ∈ t.turnsIn room, turn.call ≠ i) ∧ result = .error (.refused (.roomBusy room))) ∨
      ∃ earlier later, t.turnsIn room = earlier ++ ⟨i, room, referee, change⟩ :: later ∧
        result =
          ((Ply.mk referee change).result (duel.course (earlier.map Turn.ply))).map change.reply
  /-- While nobody has the lock, the turns make up what is stored and has been announced. -/
  settled : (∀ (i : Nat) (change : Change) (referee : Referee) (stage : Stage),
      t.calls[i]? ≠ some ⟨.change room change, referee, .working stage⟩) →
    t.world.stored.get? room = some (duel.course ((t.turnsIn room).map Turn.ply)) ∧
      heardIn published room = events ++ duel.courseEvents ((t.turnsIn room).map Turn.ply)
  /-- Whoever has the lock has the last turn, and nothing of it can be seen until the new
  duel is stored, and then all of it but for events yet to be announced. -/
  underway : ∀ (i : Nat) (change : Change) (referee : Referee) (stage : Stage),
    t.calls[i]? = some ⟨.change room change, referee, .working stage⟩ →
      ∃ earlier before, t.turnsIn room = earlier ++ [⟨i, room, referee, change⟩] ∧
        before = duel.course (earlier.map Turn.ply) ∧
        (t.world.stored.get? room = some before ∧
            heardIn published room = events ++ duel.courseEvents (earlier.map Turn.ply) ∨
          t.world.stored.get? room = some ((Ply.mk referee change).after before) ∧
            ∃ sent unsent, (Ply.mk referee change).events before = sent ++ unsent ∧
              heardIn published room =
                events ++ duel.courseEvents (earlier.map Turn.ply) ++ sent)

theorem turnByTurn_of_serial {t : Traffic Store.Memory} {published : List Envelope}
    {room : RoomId} {duel : Duel} {events : List Event}
    (h : (t.scene published room).Serial room duel events) :
    t.TurnByTurn published room duel events where
  asked turn hturn := by
    obtain ⟨phase, hcall⟩ := h.asked turn hturn
    exact ⟨phase, (calls_scene_eq_some.1 hcall).1⟩
  nodup := h.nodup
  answered i change referee result hcall :=
    h.suits i change referee _ (calls_scene_eq_some.2 ⟨hcall, rfl⟩)
  settled hquiet :=
    h.settled fun i change referee stage hcall =>
      hquiet i change referee stage (calls_scene_eq_some.1 hcall).1
  underway i change referee stage hcall := by
    obtain ⟨earlier, hturns, hfits⟩ :=
      h.suits i change referee _ (calls_scene_eq_some.2 ⟨hcall, rfl⟩)
    exact ⟨earlier, _, hturns, rfl, hfits.partly⟩

/-- A room that somebody looks at is stored. -/
theorem Inv.exists_stored {sink : Sink} {published : List Envelope} {t : Traffic Store.Memory}
    (h : Inv sink published t) {i : Nat} {room : RoomId} {player : PlayerId} {referee : Referee}
    {phase : CallPhase} (hcall : t.calls[i]? = some ⟨.get room player, referee, phase⟩) :
    ∃ duel, t.world.stored.get? room = some duel := by
  obtain ⟨o, -, hopen⟩ := (h.scenes room).of_asked (calls_scene_eq_some.2 ⟨hcall, rfl⟩) (by simp)
  obtain ⟨earlier, later, -, hstored⟩ := hopen.serial.exists_stored
  exact ⟨_, hstored⟩

/-- Nothing that a call does in the course of some acts changes what is stored or has been
announced. -/
def Ineffective (service : Service σ) (t : Traffic σ) (acts : List TrafficAct) (i : Nat) : Prop :=
  ∀ earlier act later before after, acts = earlier ++ act :: later → act.caller? = some i →
    t.run? service earlier = some before → before.act? service act = some after →
    after.world = before.world

/-- A call that fails has had no effect. -/
theorem ineffective_of_failed {service : Service σ} {t t' : Traffic σ} {acts : List TrafficAct}
    {i : Nat} {failure : Failure} (hrun : t.run? service acts = some t')
    (hanswer : t'.answer? i = some (.error failure)) : Ineffective service t acts i := by
  rintro earlier act later before after rfl hcaller hearlier hact
  rw [run?_append, hearlier] at hrun
  change before.run? service (act :: later) = some t' at hrun
  rw [run?_cons, hact] at hrun
  exact world_eq_of_failed hact hcaller hrun hanswer

/-- **Calls take turns.** Whatever the calls and however their steps are mixed:

* Everything that is announced reaches every destination, in one order.
* In every room whose creation has been answered the changes are made turn by turn.
* A call that fails, for instance since it has waited for too long, has had no effect.
* Who looks at a room is told what was stored there at a moment when the call had been
  made and not been answered. -/
theorem serializable {exclusive : Bool} {world : World Store.Memory} {acts : List TrafficAct}
    {t : Traffic Store.Memory}
    (hrun : (start world).run? (Service.inMemory exclusive) acts = some t) :
    (∃ published,
      t.world.sink.leaves = world.sink.leaves.map (fun leaf => (leaf.1, leaf.2 ++ published)) ∧
      ∀ (i : Nat) (room : RoomId) (code : String) (player : PlayerId) (referee : Referee)
        (reply : Reply),
        t.calls[i]? = some ⟨.create room code player, referee, .answered (.ok reply)⟩ →
        ∃ duel events, referee.Creates room code player duel events ∧
          reply = .view (duel.viewFor player) ∧ t.TurnByTurn published room duel events) ∧
    (∀ i failure, t.answer? i = some (.error failure) →
      Ineffective (Service.inMemory exclusive) (start world) acts i) ∧
    ∀ (i : Nat) (room : RoomId) (player : PlayerId) (referee : Referee) (result : Result Reply),
      t.calls[i]? = some ⟨.get room player, referee, .answered result⟩ →
      ∃ earlier later during duel, acts = earlier ++ later ∧
        (start world).run? (Service.inMemory exclusive) earlier = some during ∧
        during.calls[i]? = some ⟨.get room player, referee, .called⟩ ∧
        during.world.stored.get? room = some duel ∧
        result = if !duel.room.isMember player && duel.room.isFull then
            .error (.refused (.roomAccessDenied room))
          else .ok (.view (duel.viewFor player)) := by
  obtain ⟨published, hinv⟩ := Inv.of_run? hrun
  refine ⟨⟨published, hinv.heard, ?_⟩, ?_, ?_⟩
  · intro i room code player referee reply hcall
    obtain ⟨duel, events, hopen, hreply⟩ :=
      (hinv.scenes room).of_answered (calls_scene_eq_some.2 ⟨hcall, rfl⟩)
    exact ⟨duel, events, hopen.created, hreply, turnByTurn_of_serial hopen.serial⟩
  · intro i failure hanswer
    exact ineffective_of_failed hrun hanswer
  · intro i room player referee result hcall
    obtain ⟨earlier, later, during, rfl, hearlier, hduring, hresult⟩ := looked_at hrun rfl hcall
    obtain ⟨published', hinv'⟩ := Inv.of_run? hearlier
    obtain ⟨duel, hstored⟩ := hinv'.exists_stored hduring
    refine ⟨earlier, later, during, duel, rfl, hearlier, hduring, hstored, ?_⟩
    rw [hresult, Service.get_of_stored hstored]
    split
    · rfl
    · rfl

end Traffic

namespace Sample

/-- Nothing is stored, and nothing has been announced. -/
def empty : World Store.Memory := ⟨.empty, .recorder⟩

/-- A call makes some steps. -/
def steps (i n : Nat) : List TrafficAct := List.replicate n (.proceed i)

/-- Alice creates a room, Bob comes in, and both guess at the same time. Bob gets the lock
first; while he has it somebody looks at the room, and the room is not closed in time. -/
def busyRoom : List TrafficAct :=
  .call (.create ⟨7⟩ "en" alice) referee ::
    (steps 0 3 ++ [.call (.change ⟨7⟩ (.join bob)) referee] ++ steps 1 11 ++
      [.call (.change ⟨7⟩ (.guess alice "moist")) referee,
        .call (.change ⟨7⟩ (.guess bob "bumpy")) referee] ++ steps 2 1 ++ steps 3 2 ++
      [.call (.change ⟨7⟩ .close) referee] ++ steps 4 1 ++ steps 3 4 ++
      [.call (.get ⟨7⟩ bob) referee] ++ steps 5 1 ++ [.giveUp 4] ++ steps 4 1 ++ steps 3 3 ++
      steps 2 8 ++ steps 5 1)

theorem asked_busyRoom {t : Traffic Store.Memory}
    (hrun : (Traffic.start empty).run? (Service.inMemory false) busyRoom = some t) :
    ∃ phase, t.calls[0]? = some ⟨.create ⟨7⟩ "en" alice, referee, phase⟩ := by
  rw [busyRoom, Traffic.run?_cons] at hrun
  obtain ⟨t₁, hfirst, hrest⟩ := Option.bind_eq_some_iff.1 hrun
  rcases Traffic.act?_cases hfirst with
    ⟨request, judge, hact, -, rfl⟩ | ⟨i, call, step, hcaller, -⟩
  · obtain ⟨rfl, rfl⟩ := TrafficAct.call.inj hact
    exact Traffic.asked_run? rfl hrest
  · cases hcaller

end Sample

/-- What comes of it: the turns, and for each call whether it was answered with success. -/
theorem Traffic.serializable_of_busy_room :
    ∃ t published duel events reply failure,
      (start Sample.empty).run? (Service.inMemory false) Sample.busyRoom = some t ∧
      t.answer? 0 = some (.ok reply) ∧ t.answer? 4 = some (.error failure) ∧
      t.turns.map Turn.call = [1, 3, 2] ∧
      Sample.referee.Creates ⟨7⟩ "en" Sample.alice duel events ∧
      reply = .view (duel.viewFor Sample.alice) ∧
      t.world.sink.leaves = [("recorder", published)] ∧ t.TurnByTurn published ⟨7⟩ duel events ∧
      Ineffective (Service.inMemory false) (start Sample.empty) Sample.busyRoom 4 := by
  have hoccurs : ((start Sample.empty).run? (Service.inMemory false) Sample.busyRoom).map
      (fun t => (((t.answer? 0).map Except.isOk, (t.answer? 4).map Except.isOk),
        t.turns.map Turn.call)) = some ((some true, some false), [1, 3, 2]) := by
    decide +kernel
  obtain ⟨t, hrun, hfacts⟩ := Option.map_eq_some_iff.1 hoccurs
  obtain ⟨hanswers, hturns⟩ := Prod.mk.inj hfacts
  obtain ⟨hopened, hlate⟩ := Prod.mk.inj hanswers
  obtain ⟨answer, hanswer, hok⟩ := Option.map_eq_some_iff.1 hopened
  obtain ⟨late, hlate, hfails⟩ := Option.map_eq_some_iff.1 hlate
  obtain ⟨reply, rfl⟩ : ∃ reply, answer = .ok reply := by
    cases answer with
    | ok reply => exact ⟨reply, rfl⟩
    | error failure => cases hok
  obtain ⟨failure, rfl⟩ : ∃ failure, late = .error failure := by
    cases late with
    | ok reply => cases hfails
    | error failure => exact ⟨failure, rfl⟩
  obtain ⟨⟨published, hleaves, hrooms⟩, hfailed, -⟩ := serializable hrun
  obtain ⟨phase, hcall⟩ := Sample.asked_busyRoom hrun
  obtain ⟨request, referee, hcall'⟩ := answer?_eq_some_iff.1 hanswer
  obtain ⟨-, -, rfl⟩ := Call.mk.inj (Option.some.inj (hcall.symm.trans hcall'))
  obtain ⟨duel, events, hcreates, hreply, hturnByTurn⟩ := hrooms 0 _ _ _ _ reply hcall
  exact ⟨t, published, duel, events, reply, failure, hrun, hanswer, hlate, hturns, hcreates,
    hreply, hleaves, hturnByTurn, hfailed 4 failure hlate⟩

end WordDuel
