import WordDuel.Proofs.Exclusion
/-!
# WordDuel.Proofs.Scene

**What goes on in one room.** A scene is what of the traffic concerns one room: the calls,
the stored duel, the announced events and the turns. Nobody has created the room yet, or
its creation is being announced, or it is open; in an open room the turns are taken one
after the other (`Scene.Serial`). Every step of a call leaves the scene of its room in
such a state (`Scene.Inv.next`), provided that nobody gets the lock while another has it.
-/

namespace WordDuel

/-! ### Attempts in a row -/

namespace Duel

theorem course_concat (duel : Duel) (plies : List Ply) (ply : Ply) :
    duel.course (plies ++ [ply]) = ply.after (duel.course plies) := by
  simp [course, List.foldl_append]

theorem courseEvents_concat (duel : Duel) (plies : List Ply) (ply : Ply) :
    duel.courseEvents (plies ++ [ply]) =
      duel.courseEvents plies ++ ply.events (duel.course plies) := by
  induction plies generalizing duel with
  | nil => simp [courseEvents, course]
  | cons first plies ih =>
      rw [List.cons_append, courseEvents, courseEvents, ih, List.append_assoc]
      rfl

end Duel

namespace Ply

variable {ply : Ply} {duel changed : Duel} {events : List Event} {failure : Failure}

theorem of_play?_ok (h : ply.play? duel = .ok (changed, events)) :
    ply.after duel = changed ∧ ply.events duel = events ∧ ply.result duel = .ok changed := by
  rw [after, Ply.events, result, h]
  exact ⟨rfl, rfl, rfl⟩

theorem of_play?_error (h : ply.play? duel = .error failure) :
    ply.after duel = duel ∧ ply.events duel = [] ∧ ply.result duel = .error failure := by
  rw [after, Ply.events, result, h]
  exact ⟨rfl, rfl, rfl⟩

end Ply

/-! ### A change under the lock -/

/-- How a world has changed in which only a room has been touched, with news to announce. -/
structure World.Touched (w w' : World Store.Memory) (room : RoomId) (news : List Event) : Prop where
  stored : ∀ other, other ≠ room → w'.stored.get? other = w.stored.get? other
  sink : w'.sink = w.sink.publishAll room news

theorem World.Touched.refl (w : World Store.Memory) (room : RoomId) : w.Touched w room [] :=
  ⟨fun _ _ => rfl, rfl⟩

/-- What is stored and has been announced at a stage of an attempt that found a duel, where
some events had been announced before. -/
def Stage.Fits (ply : Ply) (room : RoomId) (duel : Duel) (before : List Event)
    (stored : Option Duel) (heard : List Event) : Stage → Prop
  | .entered => stored = some duel ∧ heard = before
  | .opened u => u.room = room ∧ stored = some duel ∧ heard = before
  | .loaded u found => u.room = room ∧ found = duel ∧ stored = some duel ∧ heard = before
  | .judged u changed events =>
    u.room = room ∧ ply.play? duel = .ok (changed, events) ∧ stored = some duel ∧ heard = before
  | .announcing changed events =>
    ∃ sent, ply.play? duel = .ok (changed, sent ++ events) ∧ stored = some changed ∧
      heard = before ++ sent
  | .done result =>
    result = ply.result duel ∧ stored = some (ply.after duel) ∧ heard = before ++ ply.events duel

/-- A step of an attempt touches only its room, and what is stored and has been announced
fits the stage after it. -/
theorem Stage.Fits.step {exclusive : Bool} {ply : Ply} {room : RoomId} {duel : Duel}
    {before heard : List Event} {w : World Store.Memory} {stage : Stage}
    (h : stage.Fits ply room duel before (w.stored.get? room) heard) {w' : World Store.Memory}
    {stage' : Stage}
    (hstep : ((Service.inMemory exclusive).mutation room (ply.change.move ply.referee)).step w stage
      = (w', stage')) :
    ∃ news, w.Touched w' room news ∧
      stage'.Fits ply room duel before (w'.stored.get? room) (heard ++ news) := by
  cases stage with
  | entered =>
      obtain ⟨rfl, rfl⟩ := Prod.mk.inj hstep.symm
      obtain ⟨hstored, hheard⟩ := h
      exact ⟨[], .refl _ room, rfl, hstored, by rw [hheard, List.append_nil]⟩
  | opened u =>
      obtain ⟨hroom, hstored, hheard⟩ := h
      have hload : w.stored.get? u.room = some duel := by rw [hroom, hstored]
      have hloadIn : Store.memory.loadIn w.stored u =
          .ok (some duel, { u with loaded := some (some duel) }) := by
        simp [Store.memory, hload]
      rw [Mutation.step] at hstep
      simp only [Service.mutation, Service.inMemory, hloadIn] at hstep
      obtain ⟨rfl, rfl⟩ := Prod.mk.inj hstep.symm
      exact ⟨[], .refl _ room, hroom, rfl, hstored, by rw [hheard, List.append_nil]⟩
  | loaded u found =>
      obtain ⟨hroom, rfl, hstored, hheard⟩ := h
      rw [Mutation.step] at hstep
      cases hcommit : (ply.change.move ply.referee).commit? found with
      | error failure =>
          simp only [Service.mutation, hcommit] at hstep
          obtain ⟨rfl, rfl⟩ := Prod.mk.inj hstep.symm
          have hplay : ply.play? found = .error failure := by rw [Ply.play?, hcommit]; rfl
          obtain ⟨hafter, hevents, hresult⟩ := Ply.of_play?_error hplay
          refine ⟨[], .refl _ room, hresult.symm, ?_, ?_⟩
          · rw [hafter, hstored]
          · rw [hevents, hheard]
      | ok given =>
          simp only [Service.mutation, hcommit] at hstep
          obtain ⟨rfl, rfl⟩ := Prod.mk.inj hstep.symm
          have hplay : ply.play? found = .ok given.2 := by rw [Ply.play?, hcommit]; rfl
          exact ⟨[], .refl _ room, hroom, hplay, hstored, by rw [hheard, List.append_nil]⟩
  | judged u changed events =>
      obtain ⟨hroom, hplay, hstored, hheard⟩ := h
      obtain ⟨rfl, rfl⟩ := Prod.mk.inj hstep.symm
      refine ⟨[], ⟨fun other hother => ?_, rfl⟩, [], hplay, ?_, by rw [hheard]⟩
      · exact SortedMap.get?_insert_of_ne _ _ (hroom ▸ hother)
      · rw [← hroom]
        exact SortedMap.get?_insert_self _ _ _
  | announcing changed events =>
      obtain ⟨sent, hplay, hstored, hheard⟩ := h
      cases events with
      | nil =>
          obtain ⟨rfl, rfl⟩ := Prod.mk.inj hstep.symm
          obtain ⟨hafter, hevents, hresult⟩ := Ply.of_play?_ok hplay
          refine ⟨[], .refl _ room, hresult.symm, ?_, ?_⟩
          · rw [hafter, hstored]
          · rw [hevents, hheard, List.append_nil, List.append_nil]
      | cons event events =>
          obtain ⟨rfl, rfl⟩ := Prod.mk.inj hstep.symm
          refine ⟨[event], ⟨fun _ _ => rfl, rfl⟩, sent ++ [event], ?_, hstored, ?_⟩
          · rw [hplay, List.append_assoc, List.singleton_append]
          · rw [hheard, List.append_assoc]
  | done result =>
      obtain ⟨rfl, rfl⟩ := Prod.mk.inj hstep.symm
      exact ⟨[], .refl _ room, by simpa [Fits] using h⟩

/-- An attempt under way has left everything as it was, or has stored the new duel and
announced some of the events. -/
theorem Stage.Fits.partly {ply : Ply} {room : RoomId} {duel : Duel} {before heard : List Event}
    {stored : Option Duel} {stage : Stage} (h : stage.Fits ply room duel before stored heard) :
    stored = some duel ∧ heard = before ∨
      stored = some (ply.after duel) ∧
        ∃ sent unsent, ply.events duel = sent ++ unsent ∧ heard = before ++ sent := by
  cases stage with
  | entered => exact .inl h
  | opened u => exact .inl h.2
  | loaded u found => exact .inl h.2.2
  | judged u changed events => exact .inl h.2.2
  | announcing changed events =>
      obtain ⟨sent, hplay, hstored, hheard⟩ := h
      obtain ⟨hafter, hevents, -⟩ := Ply.of_play?_ok hplay
      exact .inr ⟨by rw [hstored, hafter], sent, events, hevents, hheard⟩
  | done result =>
      obtain ⟨-, hstored, hheard⟩ := h
      exact .inr ⟨hstored, ply.events duel, [], (List.append_nil _).symm, hheard⟩

/-! ### The turns of an open room -/

/-- What goes on in a room. -/
structure Scene where
  /-- The calls about the room, by their places among all calls. -/
  calls : Nat → Option Call
  /-- The stored duel, if any. -/
  stored : Option Duel
  /-- The announced events. -/
  heard : List Event
  turns : List Turn

namespace Scene

/-- A call comes on the scene, or takes its place in another phase. -/
def withCall (s : Scene) (i : Nat) (call : Call) : Scene :=
  { s with calls := fun j => if j = i then some call else s.calls j }

theorem calls_withCall (s : Scene) (i j : Nat) (call : Call) :
    (s.withCall i call).calls j = if j = i then some call else s.calls j := rfl

/-- What is true of a call that attempts to change an open room, given the duel and the
events with which the room was created. -/
def Suits (s : Scene) (room : RoomId) (duel : Duel) (events : List Event) (i : Nat) (ply : Ply) :
    CallPhase → Prop
  | .called | .waiting => ∀ turn ∈ s.turns, turn.call ≠ i
  | .announcing _ _ | .looked _ => False
  | .working stage =>
    ∃ earlier, s.turns = earlier ++ [⟨i, room, ply⟩] ∧
      stage.Fits ply room (duel.course (earlier.map Turn.ply))
        (events ++ duel.courseEvents (earlier.map Turn.ply)) s.stored s.heard
  | .leaving result | .answered result =>
    ((∀ turn ∈ s.turns, turn.call ≠ i) ∧ result = .error (.refused (.roomBusy room))) ∨
      ∃ earlier later, s.turns = earlier ++ ⟨i, room, ply⟩ :: later ∧
        result = (ply.result (duel.course (earlier.map Turn.ply))).map ply.change.reply

/-- The turns of an open room are taken one after the other, given the duel and the events
with which the room was created. -/
structure Serial (s : Scene) (room : RoomId) (duel : Duel) (events : List Event) : Prop where
  /-- Every turn is a call's. -/
  asked : ∀ turn ∈ s.turns, ∃ phase,
    s.calls turn.call = some ⟨.change room turn.ply.change, turn.ply.referee, phase⟩
  /-- No call has two turns. -/
  nodup : (s.turns.map Turn.call).Nodup
  suits : ∀ i change referee phase, s.calls i = some ⟨.change room change, referee, phase⟩ →
    s.Suits room duel events i ⟨referee, change⟩ phase
  /-- While no change is being worked on, the turns that were taken are all there is. -/
  settled : (∀ i change referee stage,
      s.calls i ≠ some ⟨.change room change, referee, .working stage⟩) →
    s.stored = some (duel.course (s.turns.map Turn.ply)) ∧
      s.heard = events ++ duel.courseEvents (s.turns.map Turn.ply)

section Turns

variable {s : Scene} {room : RoomId} {duel : Duel} {events : List Event}

/-- Only the last turn can still be going on. -/
theorem Serial.eq_of_working (h : s.Serial room duel events) {i j : Nat} {change change' : Change}
    {referee referee' : Referee} {stage stage' : Stage}
    (hi : s.calls i = some ⟨.change room change, referee, .working stage⟩)
    (hj : s.calls j = some ⟨.change room change', referee', .working stage'⟩) : i = j := by
  obtain ⟨earlier, hturns, -⟩ := h.suits i change referee _ hi
  obtain ⟨earlier', hturns', -⟩ := h.suits j change' referee' _ hj
  rw [hturns] at hturns'
  have hlast := (List.append_inj' hturns' rfl).2
  exact congrArg Turn.call (List.cons.inj hlast).1

/-- Whether or not somebody is at work, the course of some of the turns is stored. -/
theorem Serial.exists_stored (h : s.Serial room duel events) :
    ∃ earlier later, s.turns = earlier ++ later ∧
      s.stored = some (duel.course (earlier.map Turn.ply)) := by
  rcases Classical.em (∃ i change referee stage,
      s.calls i = some ⟨.change room change, referee, .working stage⟩) with
    ⟨i, change, referee, stage, hworking⟩ | hquiet
  · obtain ⟨earlier, hturns, hfits⟩ := h.suits i change referee _ hworking
    rcases hfits.partly with ⟨hsame, -⟩ | ⟨hchanged, -⟩
    · exact ⟨earlier, _, hturns, hsame⟩
    · refine ⟨s.turns, [], (List.append_nil _).symm, ?_⟩
      rw [hchanged, hturns, List.map_append, List.map_singleton, Duel.course_concat]
  · obtain ⟨hstored, -⟩ := h.settled fun i change referee stage hworking =>
      hquiet ⟨i, change, referee, stage, hworking⟩
    exact ⟨s.turns, [], (List.append_nil _).symm, hstored⟩

/-- What suits a call that is not being worked on depends on the turns alone, and still
suits it when somebody else has a turn. -/
theorem Suits.of_turns {s' : Scene} {i : Nat} {ply : Ply} {phase : CallPhase} {more : List Turn}
    (h : s.Suits room duel events i ply phase) (hphase : ∀ stage, phase ≠ .working stage)
    (hturns : s'.turns = s.turns ++ more) (hmore : ∀ turn ∈ more, turn.call ≠ i) :
    s'.Suits room duel events i ply phase := by
  have hothers (hnone : ∀ turn ∈ s.turns, turn.call ≠ i) : ∀ turn ∈ s'.turns, turn.call ≠ i := by
    intro turn hturn
    rw [hturns] at hturn
    rcases List.mem_append.1 hturn with hturn | hturn
    · exact hnone turn hturn
    · exact hmore turn hturn
  have hdone {result : Result Reply}
      (h : s.Suits room duel events i ply (.answered result)) :
      s'.Suits room duel events i ply (.answered result) := by
    rcases h with ⟨hnone, hbusy⟩ | ⟨earlier, later, hsplit, hresult⟩
    · exact .inl ⟨hothers hnone, hbusy⟩
    · refine .inr ⟨earlier, later ++ more, ?_, hresult⟩
      rw [hturns, hsplit, List.append_assoc, List.cons_append]
  cases phase with
  | called => exact hothers h
  | announcing duel events => exact h
  | looked result => exact h
  | waiting => exact hothers h
  | working stage => exact (hphase stage rfl).elim
  | leaving result => exact hdone h
  | answered result => exact hdone h

/-- A call about a room that does not change it has no part in the turns. -/
theorem Serial.withCall (h : s.Serial room duel events) {i : Nat} {call : Call}
    (hbefore : ∀ change referee phase, s.calls i ≠ some ⟨.change room change, referee, phase⟩)
    (hcall : ∀ change referee phase, call ≠ ⟨.change room change, referee, phase⟩) :
    (s.withCall i call).Serial room duel events := by
  have hsame : ∀ j change referee phase,
      (s.withCall i call).calls j = some ⟨.change room change, referee, phase⟩ ↔
        s.calls j = some ⟨.change room change, referee, phase⟩ := by
    intro j change referee phase
    by_cases hj : j = i
    · subst hj
      have hnow : (s.withCall j call).calls j = some call := if_pos rfl
      rw [hnow, Option.some.injEq]
      exact ⟨fun heq => (hcall _ _ _ heq).elim, fun heq => (hbefore _ _ _ heq).elim⟩
    · rw [calls_withCall, if_neg hj]
  refine ⟨?_, h.nodup, ?_, ?_⟩
  · intro turn hturn
    obtain ⟨phase, hasked⟩ := h.asked turn hturn
    exact ⟨phase, (hsame _ _ _ _).2 hasked⟩
  · intro j change referee phase hj
    exact h.suits j change referee phase ((hsame _ _ _ _).1 hj)
  · intro hquiet
    exact h.settled fun j change referee stage hj => hquiet j change referee stage
      ((hsame _ _ _ _).2 hj)

/-- A turn stays with its call when the call comes further. -/
theorem Serial.asked_withCall (h : s.Serial room duel events) {i : Nat} {change : Change}
    {referee : Referee} {phase : CallPhase}
    (hcall : s.calls i = some ⟨.change room change, referee, phase⟩) (phase' : CallPhase) :
    ∀ turn ∈ s.turns, ∃ phase,
      (s.withCall i ⟨.change room change, referee, phase'⟩).calls turn.call =
        some ⟨.change room turn.ply.change, turn.ply.referee, phase⟩ := by
  intro turn hturn
  obtain ⟨phase₀, hasked⟩ := h.asked turn hturn
  by_cases hi : turn.call = i
  · rw [hi, hcall] at hasked
    obtain ⟨hrequest, hreferee, -⟩ := Call.mk.inj (Option.some.inj hasked)
    refine ⟨phase', ?_⟩
    rw [calls_withCall, if_pos hi, hrequest, hreferee]
  · exact ⟨phase₀, by rw [calls_withCall, if_neg hi, hasked]⟩

/-- Somebody attempts a change. -/
theorem Serial.called (h : s.Serial room duel events) {i : Nat} (hnew : s.calls i = none)
    (change : Change) (referee : Referee) :
    (s.withCall i ⟨.change room change, referee, .called⟩).Serial room duel events := by
  have hnone : ∀ turn ∈ s.turns, turn.call ≠ i := by
    rintro turn hturn rfl
    obtain ⟨phase, hasked⟩ := h.asked turn hturn
    rw [hnew] at hasked
    cases hasked
  refine ⟨?_, h.nodup, ?_, ?_⟩
  · intro turn hturn
    obtain ⟨phase, hasked⟩ := h.asked turn hturn
    exact ⟨phase, by rw [calls_withCall, if_neg (hnone turn hturn), hasked]⟩
  · intro j change' referee' phase hj
    rw [calls_withCall] at hj
    split at hj
    · next hi =>
      subst hi
      cases hj
      exact hnone
    · exact h.suits j change' referee' phase hj
  · intro hquiet
    refine h.settled fun j change' referee' stage hj => hquiet j change' referee' stage ?_
    have hi : j ≠ i := by
      rintro rfl
      rw [hnew] at hj
      cases hj
    rw [calls_withCall, if_neg hi, hj]

/-- A change comes further outside the lock. -/
theorem Serial.outside (h : s.Serial room duel events) {i : Nat} {change : Change}
    {referee : Referee} {phase phase' : CallPhase}
    (hcall : s.calls i = some ⟨.change room change, referee, phase⟩)
    (hbefore : ∀ stage, phase ≠ .working stage)
    (hsuits : s.Suits room duel events i ⟨referee, change⟩ phase') :
    (s.withCall i ⟨.change room change, referee, phase'⟩).Serial room duel events where
  asked := h.asked_withCall hcall phase'
  nodup := h.nodup
  suits j change' referee' phase₀ hj := by
    rw [calls_withCall] at hj
    split at hj
    · next hi =>
      subst hi
      cases hj
      exact hsuits
    · exact h.suits j change' referee' phase₀ hj
  settled hquiet := by
    refine h.settled ?_
    intro j change' referee' stage hj
    by_cases hi : j = i
    · subst hi
      obtain ⟨-, -, hphase⟩ := Call.mk.inj (Option.some.inj (hcall.symm.trans hj))
      exact hbefore stage hphase
    · exact hquiet j change' referee' stage (by rw [calls_withCall, if_neg hi, hj])

/-- A change that has the lock comes further. -/
theorem Serial.inside (h : s.Serial room duel events) {i : Nat} {change : Change}
    {referee : Referee} {stage : Stage} {phase' : CallPhase} {stored : Option Duel}
    {heard : List Event}
    (hcall : s.calls i = some ⟨.change room change, referee, .working stage⟩)
    (hsuits : Suits { s with stored, heard } room duel events i ⟨referee, change⟩ phase')
    (hsettled : (∀ stage, phase' ≠ .working stage) →
      stored = some (duel.course (s.turns.map Turn.ply)) ∧
        heard = events ++ duel.courseEvents (s.turns.map Turn.ply)) :
    Serial { s.withCall i ⟨.change room change, referee, phase'⟩ with stored, heard }
      room duel events where
  asked := h.asked_withCall hcall phase'
  nodup := h.nodup
  suits j change' referee' phase₀ hj := by
    change (s.withCall i _).calls j = _ at hj
    rw [calls_withCall] at hj
    split at hj
    · next hi =>
      subst hi
      cases hj
      exact hsuits
    · next hi =>
      -- What suits the others depends on the turns alone, since none of them is at work.
      refine (h.suits j change' referee' phase₀ hj).of_turns (fun stage' hphase => ?_)
        (List.append_nil _).symm (fun turn hturn => by cases hturn)
      rw [hphase] at hj
      exact hi (h.eq_of_working hj hcall)
  settled hquiet := by
    refine hsettled ?_
    intro stage' hphase
    refine hquiet i change referee stage' ?_
    show (s.withCall i _).calls i = _
    rw [calls_withCall, if_pos rfl, hphase]

/-- A change gets the lock while no other is being worked on. -/
theorem Serial.obtained (h : s.Serial room duel events) {i : Nat} {change : Change}
    {referee : Referee} (hcall : s.calls i = some ⟨.change room change, referee, .waiting⟩)
    (hquiet : ∀ j change referee stage,
      s.calls j ≠ some ⟨.change room change, referee, .working stage⟩) :
    Serial { s.withCall i ⟨.change room change, referee, .working .entered⟩ with
      turns := s.turns ++ [⟨i, room, referee, change⟩] } room duel events where
  asked turn hturn := by
    rcases List.mem_append.1 hturn with hturn | hturn
    · exact h.asked_withCall hcall _ turn hturn
    · rw [List.mem_singleton.1 hturn]
      exact ⟨_, if_pos rfl⟩
  nodup := by
    have hnew : ∀ turn ∈ s.turns, turn.call ≠ i := h.suits i change referee _ hcall
    rw [List.map_append, List.nodup_append]
    refine ⟨h.nodup, by simp, fun j hj k hk => ?_⟩
    obtain ⟨turn, hturn, rfl⟩ := List.mem_map.1 hj
    obtain rfl := List.mem_singleton.1 hk
    exact hnew turn hturn
  suits j change' referee' phase₀ hj := by
    change (s.withCall i _).calls j = _ at hj
    rw [calls_withCall] at hj
    split at hj
    · next hi =>
      subst hi
      cases hj
      exact ⟨s.turns, rfl, h.settled hquiet⟩
    · next hi =>
      refine (h.suits j change' referee' phase₀ hj).of_turns ?_ rfl ?_
      · intro stage hphase
        rw [hphase] at hj
        exact hquiet j change' referee' stage hj
      · intro turn hturn
        rw [List.mem_singleton.1 hturn]
        exact Ne.symm hi
  settled hnone := (hnone i change referee .entered (if_pos rfl)).elim

/-- An attempt to change the room goes on under the lock. -/
theorem Serial.worked {exclusive : Bool} {w w' : World Store.Memory}
    (h : s.Serial room duel events) {i : Nat} {change : Change} {referee : Referee}
    {stage stage' : Stage} (hcall : s.calls i = some ⟨.change room change, referee, .working stage⟩)
    (hstored : s.stored = w.stored.get? room)
    (hstep : ((Service.inMemory exclusive).mutation room (change.move referee)).step w stage =
      (w', stage')) :
    ∃ news, w.Touched w' room news ∧
      Serial { s.withCall i ⟨.change room change, referee, .working stage'⟩ with
        stored := w'.stored.get? room
        heard := s.heard ++ news } room duel events := by
  obtain ⟨earlier, hturns, hfits⟩ := h.suits i change referee _ hcall
  rw [hstored] at hfits
  obtain ⟨news, htouched, hfits'⟩ := hfits.step hstep
  exact ⟨news, htouched,
    h.inside hcall ⟨earlier, hturns, hfits'⟩ fun hno => (hno stage' rfl).elim⟩

/-- A turn is over, and what is stored is now what all turns make up. -/
theorem Serial.finished (h : s.Serial room duel events) {i : Nat} {change : Change}
    {referee : Referee} {result : Result Duel}
    (hcall : s.calls i = some ⟨.change room change, referee, .working (.done result)⟩) :
    (s.withCall i ⟨.change room change, referee, .leaving (result.map change.reply)⟩).Serial room
      duel events := by
  obtain ⟨earlier, hturns, hresult, hduel, hheard⟩ := h.suits i change referee _ hcall
  refine h.inside hcall (.inr ⟨earlier, [], hturns, ?_⟩) ?_
  · rw [hresult]
  · intro _
    rw [hturns, List.map_append, List.map_singleton, Duel.course_concat,
      Duel.courseEvents_concat, ← List.append_assoc]
    exact ⟨hduel, hheard⟩

/-- A room that nobody has attempted to change holds the duel with which it was created. -/
theorem serial_of_idle
    (hidle : s.turns = []) (hstored : s.stored = some duel) (hheard : s.heard = events)
    (hnone : ∀ i change referee phase, s.calls i ≠ some ⟨.change room change, referee, phase⟩) :
    s.Serial room duel events where
  asked turn hturn := by
    rw [hidle] at hturn
    cases hturn
  nodup := by
    rw [hidle]
    exact List.nodup_nil
  suits i change referee phase hi := (hnone i change referee phase hi).elim
  settled _ := by
    rw [hidle]
    exact ⟨hstored, hheard.trans (List.append_nil _).symm⟩

end Turns

end Scene

/-! ### The creation of a room -/

/-- A referee creates a room in the language of a code: the duel and the events. -/
def Referee.Creates (referee : Referee) (room : RoomId) (code : String) (player : PlayerId)
    (duel : Duel) (events : List Event) : Prop :=
  ∃ language, Language.ofCode? code = some language ∧
    referee.createRoom room language player = (duel, events)

theorem Service.creates_of_establish {exclusive : Bool} {referee : Referee}
    {w w' : World Store.Memory} {room : RoomId} {code : String} {player : PlayerId} {duel : Duel}
    {events : List Event}
    (h : (Service.inMemory exclusive).establish referee w room code player =
      .ok (w', duel, events)) :
    referee.Creates room code player duel events ∧
      w' = { w with stored := w.stored.insert room duel } := by
  rw [establish] at h
  split at h
  · cases h
  · next language hlanguage =>
    cases h
    exact ⟨⟨language, hlanguage, rfl⟩, rfl⟩

/-- How a room came into being. -/
structure Creation where
  /-- The call that created it. -/
  call : Nat
  /-- The code of the language. -/
  code : String
  /-- Who created it. -/
  player : PlayerId
  /-- The referee of the call. -/
  referee : Referee
  /-- The duel that was stored. -/
  duel : Duel
  /-- The events that were announced. -/
  events : List Event

namespace Scene

/-- The creation of a room has been answered, and the room can be asked for. -/
structure Open (s : Scene) (room : RoomId) (o : Creation) : Prop where
  creation : s.calls o.call = some
    ⟨.create room o.code o.player, o.referee, .answered (.ok (.view (o.duel.viewFor o.player)))⟩
  only : ∀ i code player referee phase,
    s.calls i = some ⟨.create room code player, referee, phase⟩ → i = o.call
  created : o.referee.Creates room o.code o.player o.duel o.events
  serial : s.Serial room o.duel o.events

/-- What is true of a room at any time. -/
inductive Inv (room : RoomId) (s : Scene) : Prop
  /-- Nobody has created the room. -/
  | unborn
    (calls : ∀ i call, s.calls i = some call →
      ∃ code player referee, call = ⟨.create room code player, referee, .called⟩ ∨
        ∃ failure, call = ⟨.create room code player, referee, .answered (.error failure)⟩)
    (single : ∀ i j, (s.calls i).isSome → (s.calls j).isSome → i = j)
    (silent : s.heard = []) (idle : s.turns = [])
  /-- The room is stored, and what is left of its first events is being announced. -/
  | announcing {c : Nat} {code : String} {player : PlayerId} {referee : Referee} {duel : Duel}
    {events : List Event}
    (creation : s.calls c =
      some ⟨.create room code player, referee, .announcing duel events⟩)
    (only : ∀ i, (s.calls i).isSome → i = c)
    (created : referee.Creates room code player duel (s.heard ++ events))
    (stored : s.stored = some duel) (idle : s.turns = [])
  /-- The room is open. -/
  | opened {o : Creation} (opened : s.Open room o)

section Creation

variable {s : Scene} {room : RoomId}

/-- How far the creation of a room can have come, and what is then true of the room. -/
theorem Inv.creation (h : s.Inv room) {i : Nat} {code : String} {player : PlayerId}
    {referee : Referee} {phase : CallPhase}
    (hcall : s.calls i = some ⟨.create room code player, referee, phase⟩) :
    ((phase = .called ∨ ∃ failure, phase = .answered (.error failure)) ∧
      (∀ j, (s.calls j).isSome → j = i) ∧ s.heard = [] ∧ s.turns = []) ∨
    (∃ duel events, phase = .announcing duel events ∧ (∀ j, (s.calls j).isSome → j = i) ∧
      referee.Creates room code player duel (s.heard ++ events) ∧ s.stored = some duel ∧
      s.turns = []) ∨
    ∃ duel events, phase = .answered (.ok (.view (duel.viewFor player))) ∧
      s.Open room ⟨i, code, player, referee, duel, events⟩ := by
  cases h with
  | unborn calls single silent idle =>
      refine .inl ⟨?_, fun j hj => single j i hj (Option.isSome_of_mem hcall), silent, idle⟩
      obtain ⟨code', player', referee', heq | ⟨failure, heq⟩⟩ := calls i _ hcall
      · exact .inl (Call.mk.inj heq).2.2
      · exact .inr ⟨failure, (Call.mk.inj heq).2.2⟩
  | announcing creation only created stored idle =>
      obtain rfl := only i (Option.isSome_of_mem hcall)
      cases hcall.symm.trans creation
      exact .inr (.inl ⟨_, _, rfl, only, created, stored, idle⟩)
  | @opened o hopen =>
      obtain rfl := hopen.only i code player referee _ hcall
      have hcreation := hopen.creation
      obtain ⟨c, code', player', referee', duel, events⟩ := o
      cases hcall.symm.trans hcreation
      exact .inr (.inr ⟨duel, events, rfl, hopen⟩)

/-- Before its first step the creation of a room is all that is known of it. -/
theorem Inv.of_called (h : s.Inv room) {i : Nat} {code : String} {player : PlayerId}
    {referee : Referee} (hcall : s.calls i = some ⟨.create room code player, referee, .called⟩) :
    (∀ j, (s.calls j).isSome → j = i) ∧ s.heard = [] ∧ s.turns = [] := by
  rcases h.creation hcall with ⟨-, hunborn⟩ | ⟨duel, events, hphase, -⟩ | ⟨duel, events, hphase, -⟩
  · exact hunborn
  · cases hphase
  · cases hphase

/-- While a room is being announced its creation is all that is known of it. -/
theorem Inv.of_announcing (h : s.Inv room) {i : Nat} {code : String} {player : PlayerId}
    {referee : Referee} {duel : Duel} {events : List Event}
    (hcall : s.calls i = some ⟨.create room code player, referee, .announcing duel events⟩) :
    (∀ j, (s.calls j).isSome → j = i) ∧
      referee.Creates room code player duel (s.heard ++ events) ∧ s.stored = some duel ∧
      s.turns = [] := by
  rcases h.creation hcall with
    ⟨hphase | ⟨failure, hphase⟩, -⟩ | ⟨duel', events', hphase, hknown⟩ | ⟨duel', events', hphase, -⟩
  · cases hphase
  · cases hphase
  · obtain ⟨rfl, rfl⟩ := CallPhase.announcing.inj hphase
    exact hknown
  · cases hphase

/-- A room whose creation has been answered is open. -/
theorem Inv.of_answered (h : s.Inv room) {i : Nat} {code : String} {player : PlayerId}
    {referee : Referee} {reply : Reply}
    (hcall : s.calls i = some ⟨.create room code player, referee, .answered (.ok reply)⟩) :
    ∃ duel events, s.Open room ⟨i, code, player, referee, duel, events⟩ ∧
      reply = .view (duel.viewFor player) := by
  rcases h.creation hcall with
    ⟨hphase | ⟨failure, hphase⟩, -⟩ | ⟨duel, events, hphase, -⟩ | ⟨duel, events, hphase, hopen⟩
  · cases hphase
  · cases hphase
  · cases hphase
  · cases hphase
    exact ⟨duel, events, hopen, rfl⟩

/-- A creation does not wait for a lock. -/
theorem Inv.not_waiting (h : s.Inv room) {i : Nat} {code : String} {player : PlayerId}
    {referee : Referee} :
    s.calls i ≠ some ⟨.create room code player, referee, .waiting⟩ := by
  intro hcall
  rcases h.creation hcall with
    ⟨hphase | ⟨failure, hphase⟩, -⟩ | ⟨duel, events, hphase, -⟩ | ⟨duel, events, hphase, -⟩
  · cases hphase
  · cases hphase
  · cases hphase
  · cases hphase

/-- A room that nobody has called about has no history. -/
theorem Inv.of_unused (h : s.Inv room) (hnone : ∀ i, s.calls i = none) :
    s.heard = [] ∧ s.turns = [] := by
  cases h with
  | unborn calls single silent idle => exact ⟨silent, idle⟩
  | announcing creation only created stored idle =>
      rw [hnone] at creation
      cases creation
  | opened hopen =>
      have hcreation := hopen.creation
      rw [hnone] at hcreation
      cases hcreation

theorem Open.ne_of_none {o : Creation} (h : s.Open room o) {i : Nat} (hi : s.calls i = none) :
    i ≠ o.call := by
  rintro rfl
  rw [h.creation] at hi
  cases hi

/-- Who asks for a room finds it open. -/
theorem Inv.of_asked (h : s.Inv room) {i : Nat} {call : Call} (hcall : s.calls i = some call)
    (hasked : ∀ code player, call.request ≠ .create room code player) :
    ∃ o, i ≠ o.call ∧ s.Open room o := by
  cases h with
  | unborn calls single silent idle =>
      obtain ⟨code, player, referee, rfl | ⟨failure, rfl⟩⟩ := calls i _ hcall
      · exact (hasked code player rfl).elim
      · exact (hasked code player rfl).elim
  | announcing creation only created stored idle =>
      obtain rfl := only i (by rw [hcall]; rfl)
      rw [creation] at hcall
      obtain rfl := Option.some.inj hcall
      exact (hasked _ _ rfl).elim
  | @opened o hopen =>
      refine ⟨o, ?_, hopen⟩
      rintro rfl
      obtain rfl := Option.some.inj (hcall.symm.trans hopen.creation)
      exact hasked _ _ rfl

/-- An open room stays open while calls that ask for it come and go. -/
theorem Open.withCall {o : Creation} (h : s.Open room o) {s' : Scene} {i : Nat} {call : Call}
    (hi : i ≠ o.call) (hasked : ∀ code player, call.request ≠ .create room code player)
    (hcalls : s'.calls = (s.withCall i call).calls) (hserial : s'.Serial room o.duel o.events) :
    s'.Open room o where
  creation := by
    rw [hcalls, calls_withCall, if_neg (Ne.symm hi)]
    exact h.creation
  only j code player referee phase hj := by
    rw [hcalls, calls_withCall] at hj
    split at hj
    · obtain rfl := Option.some.inj hj
      exact (hasked code player rfl).elim
    · exact h.only j code player referee phase hj
  created := h.created
  serial := hserial

/-- A single creation of a room in another phase. -/
theorem withCall_only {i : Nat} (call : Call) (honly : ∀ j, (s.calls j).isSome → j = i) :
    ∀ j, ((s.withCall i call).calls j).isSome → j = i := by
  intro j hj
  rw [calls_withCall] at hj
  split at hj
  · next hi => exact hi
  · exact honly j hj

/-- A room that nobody has created, with a single creation that has not succeeded. -/
theorem Inv.unborn_of {i : Nat} {code : String} {player : PlayerId} {referee : Referee}
    {phase : CallPhase} (hcall : s.calls i = some ⟨.create room code player, referee, phase⟩)
    (hphase : phase = .called ∨ ∃ failure, phase = .answered (.error failure))
    (honly : ∀ j, (s.calls j).isSome → j = i) (hsilent : s.heard = []) (hidle : s.turns = []) :
    s.Inv room := by
  refine .unborn ?_ (fun j k hj hk => (honly j hj).trans (honly k hk).symm)
    hsilent hidle
  intro j call hj
  obtain rfl := honly j (by rw [hj]; rfl)
  obtain rfl := Option.some.inj (hcall.symm.trans hj)
  rcases hphase with rfl | ⟨failure, rfl⟩
  · exact ⟨code, player, referee, .inl rfl⟩
  · exact ⟨code, player, referee, .inr ⟨failure, rfl⟩⟩

/-- A room is open once its creation has been answered. -/
theorem Inv.welcomed (h : s.Inv room) {i : Nat} {code : String} {player : PlayerId}
    {referee : Referee} {duel : Duel}
    (hcall : s.calls i = some ⟨.create room code player, referee, .announcing duel []⟩) :
    (s.withCall i ⟨.create room code player, referee,
      .answered (.ok (.view (duel.viewFor player)))⟩).Inv room := by
  obtain ⟨honly, hcreates, hduel, hidle⟩ := h.of_announcing hcall
  rw [List.append_nil] at hcreates
  have hnow := withCall_only
    ⟨.create room code player, referee, .answered (.ok (.view (duel.viewFor player)))⟩ honly
  refine .opened (o := ⟨i, code, player, referee, duel, s.heard⟩) ⟨if_pos rfl,
    fun j _ _ _ _ hj => hnow j (Option.isSome_of_mem hj), hcreates, ?_⟩
  refine serial_of_idle hidle hduel rfl fun j change referee' phase hj => ?_
  obtain rfl := hnow j (Option.isSome_of_mem hj)
  cases Option.some.inj (hj.symm.trans (if_pos rfl))

end Creation

/-! ### Steps -/

/-- A scene after a step of one of its calls, which has led to a world with news. -/
def after (s : Scene) (i : Nat) (call : Call) (step : CallStep Store.Memory) (room : RoomId)
    (news : List Event) : Scene where
  calls := (s.withCall i { call with phase := step.phase }).calls
  stored := step.world.stored.get? room
  heard := s.heard ++ news
  turns := s.turns ++ step.turn?.toList

/-- A step that touches nothing moves the call. -/
theorem after_eq {t : Traffic Store.Memory} {s : Scene} {room : RoomId}
    (hstored : s.stored = t.world.stored.get? room) (i : Nat) (call : Call)
    {step : CallStep Store.Memory} (hworld : step.world = t.world) (hturn : step.turn? = none) :
    s.after i call step room [] = s.withCall i { call with phase := step.phase } := by
  rw [after, hworld, hturn, ← hstored]
  simp [Scene.withCall]

/-- A step of a call touches only its room, and leaves the scene there as it should be. -/
def Survives (s : Scene) (t : Traffic Store.Memory) (room : RoomId) (i : Nat) (call : Call)
    (step : CallStep Store.Memory) : Prop :=
  ∃ news, t.world.Touched step.world room news ∧ (s.after i call step room news).Inv room

section Steps

variable {exclusive : Bool} {t : Traffic Store.Memory} {s : Scene} {room : RoomId} {i : Nat}

/-- A call that asks for a room comes further, and touches nothing. -/
theorem Inv.asked_further (h : s.Inv room) {call : Call} {step : CallStep Store.Memory}
    (hcall : s.calls i = some call)
    (hasked : ∀ code player, call.request ≠ .create room code player)
    (hstored : s.stored = t.world.stored.get? room) (hworld : step.world = t.world)
    (hturn : step.turn? = none)
    (hserial : ∀ duel events, s.Serial room duel events →
      (s.withCall i { call with phase := step.phase }).Serial room duel events) :
    s.Survives t room i call step := by
  obtain ⟨o, hi, hopen⟩ := h.of_asked hcall hasked
  have hmoved : ∀ code player,
      { call with phase := step.phase }.request ≠ .create room code player := hasked
  refine ⟨[], ?_, .opened (hopen.withCall hi hmoved rfl ?_)⟩
  · rw [hworld]
    exact .refl _ _
  · rw [after_eq hstored i _ hworld hturn]
    exact hserial _ _ hopen.serial

/-- The creation of a room comes further. -/
theorem Inv.created_further (h : s.Inv room) {code : String} {player : PlayerId}
    {referee : Referee} {phase : CallPhase} {step : CallStep Store.Memory}
    (hnext : Traffic.Next (Service.inMemory exclusive) t i
      ⟨.create room code player, referee, phase⟩ step)
    (hcall : s.calls i = some ⟨.create room code player, referee, phase⟩)
    (hstored : s.stored = t.world.stored.get? room) :
    s.Survives t room i ⟨.create room code player, referee, phase⟩ step := by
  cases hnext with
  | refuse hrefused =>
      obtain ⟨honly, hsilent, hidle⟩ := h.of_called hcall
      refine ⟨[], .refl _ _, ?_⟩
      rw [after_eq hstored i _ rfl rfl]
      exact .unborn_of (if_pos rfl) (.inr ⟨_, rfl⟩) (withCall_only _ honly) hsilent hidle
  | @establish _ _ _ _ world duel events hestablished =>
      obtain ⟨honly, hsilent, hidle⟩ := h.of_called hcall
      obtain ⟨hcreates, rfl⟩ := Service.creates_of_establish hestablished
      refine ⟨[], ⟨fun other hother => SortedMap.get?_insert_of_ne _ _ hother, rfl⟩,
        .announcing (if_pos rfl) (withCall_only _ honly) ?_ ?_ ?_⟩
      · show referee.Creates room code player duel (s.heard ++ [] ++ events)
        rw [hsilent]
        exact hcreates
      · exact SortedMap.get?_insert_self _ _ _
      · show s.turns ++ [] = []
        rw [hidle, List.append_nil]
  | @announce _ _ _ _ duel event events =>
      obtain ⟨honly, hcreates, hduel, hidle⟩ := h.of_announcing hcall
      refine ⟨[event], ⟨fun _ _ => rfl, rfl⟩,
        .announcing (if_pos rfl) (withCall_only _ honly) ?_ ?_ ?_⟩
      · show referee.Creates room code player duel (s.heard ++ [event] ++ events)
        rw [List.append_assoc]
        exact hcreates
      · exact hstored.symm.trans hduel
      · show s.turns ++ [] = []
        rw [hidle, List.append_nil]
  | welcome =>
      refine ⟨[], .refl _ _, ?_⟩
      rw [after_eq hstored i _ rfl rfl]
      exact h.welcomed hcall
  | giveUp hletsGo => exact (h.not_waiting hcall).elim

/-- An attempt to change a room comes further, and gets the lock only if nobody has it. -/
theorem Inv.changed_further (h : s.Inv room) {change : Change} {referee : Referee}
    {phase : CallPhase} {step : CallStep Store.Memory}
    (hnext : Traffic.Next (Service.inMemory exclusive) t i ⟨.change room change, referee, phase⟩
      step)
    (hcall : s.calls i = some ⟨.change room change, referee, phase⟩)
    (hstored : s.stored = t.world.stored.get? room)
    (halone : ∀ table, phase = .waiting → t.table.act? (.obtain i) = some table →
      ∀ j call' stage, s.calls j = some call' → call'.phase ≠ .working stage) :
    s.Survives t room i ⟨.change room change, referee, phase⟩ step := by
  cases hnext with
  | arrive harrives =>
      refine h.asked_further hcall (by simp) hstored rfl rfl fun duel events hserial => ?_
      have hsuits := hserial.suits i change referee _ hcall
      exact hserial.outside hcall (by simp) hsuits
  | @obtain _ _ _ table hobtains =>
      obtain ⟨o, hi, hopen⟩ := h.of_asked hcall (by simp)
      refine ⟨[], .refl _ _, .opened (hopen.withCall hi (by simp) rfl ?_)⟩
      -- Nobody is at work, so that the turns so far make up what is stored.
      have hquiet : ∀ j change referee stage,
          s.calls j ≠ some ⟨.change room change, referee, .working stage⟩ :=
        fun j change referee stage hj => halone table rfl hobtains j _ stage hj rfl
      have hscene : s.after i ⟨.change room change, referee, .waiting⟩
          ⟨table, t.world, some ⟨i, room, referee, change⟩, .working .entered⟩ room [] =
          { s.withCall i ⟨.change room change, referee, .working .entered⟩ with
            turns := s.turns ++ [⟨i, room, referee, change⟩] } := by
        rw [after, ← hstored, List.append_nil]
        rfl
      rw [hscene]
      exact hopen.serial.obtained hcall hquiet
  | work hrunning =>
      obtain ⟨o, hi, hopen⟩ := h.of_asked hcall (by simp)
      obtain ⟨news, htouched, hserial⟩ := hopen.serial.worked hcall hstored rfl
      refine ⟨news, htouched, .opened (hopen.withCall hi (by simp) rfl ?_)⟩
      have hturns : s.turns ++ (none : Option Turn).toList = s.turns := List.append_nil _
      rw [after]
      show Serial ⟨_, _, _, s.turns ++ (none : Option Turn).toList⟩ _ _ _
      rw [hturns]
      exact hserial
  | letGo hletsGo =>
      exact h.asked_further hcall (by simp) hstored rfl rfl fun _ _ hserial =>
        hserial.finished hcall
  | prune hprunes =>
      refine h.asked_further hcall (by simp) hstored rfl rfl fun duel events hserial => ?_
      have hsuits := hserial.suits i change referee _ hcall
      exact hserial.outside hcall (by simp) hsuits
  | giveUp hletsGo =>
      refine h.asked_further hcall (by simp) hstored rfl rfl fun duel events hserial => ?_
      exact hserial.outside hcall (by simp)
        (.inl ⟨hserial.suits i change referee _ hcall, rfl⟩)

/-- A step touches only the room of the call, and leaves its scene as it should be. -/
theorem Inv.next (h : s.Inv room) {call : Call} {step : CallStep Store.Memory}
    (hnext : Traffic.Next (Service.inMemory exclusive) t i call step)
    (hcall : s.calls i = some call) (hroom : call.request.room = room)
    (hstored : s.stored = t.world.stored.get? room)
    (halone : ∀ table, call.phase = .waiting → t.table.act? (.obtain i) = some table →
      ∀ j call' stage, s.calls j = some call' → call'.phase ≠ .working stage) :
    s.Survives t room i call step := by
  obtain ⟨request, referee, phase⟩ := call
  cases request with
  | create room' code player =>
      obtain rfl : room' = room := hroom
      exact h.created_further hnext hcall hstored
  | get room' player =>
      have hquiet : step.world = t.world ∧ step.turn? = none := by cases hnext <;> exact ⟨rfl, rfl⟩
      exact h.asked_further hcall (by simp) hstored hquiet.1 hquiet.2 fun _ _ hserial =>
        hserial.withCall (by simp [hcall]) (by simp)
  | change room' change =>
      obtain rfl : room' = room := hroom
      exact h.changed_further hnext hcall hstored halone

end Steps

end Scene

end WordDuel
