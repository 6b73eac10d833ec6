import WordDuel.Proofs.Recall
import WordDuel.Proofs.Serial
/-!
# WordDuel.Proofs.Audience

**Who sees what.** A service shows a room to a player by a view of the duel that is stored at
the time. However the calls are mixed, that duel is what some of the turns in the room have made
of it (`Scene.Serial.exists_stored`), so that the view shows what there is to see after them.
A room that has two members keeps them (`Traffic.Inv.players_act?`), so that everybody else is
refused whenever the room is read.
-/

namespace WordDuel

/-- Who makes a change is shown the room. -/
theorem Change.reply_eq_view {room : RoomId} {change : Change} {player : PlayerId}
    (h : (Request.change room change).player? = some player) (duel : Duel) :
    change.reply duel = .view (duel.viewFor player) := by
  cases change with
  | join _ | guess _ _ | startRound _ =>
      obtain rfl := Option.some.inj h
      rfl
  | close => cases h

/-! ### The roster of a room -/

/-- Only a commit changes what is stored. -/
theorem Mutation.stored_step {σ : Type} (m : Mutation σ) (w : World σ) (stage : Stage) :
    (m.step w stage).1.stored = w.stored ∨
      ∃ u duel events, stage = .judged u duel events := by
  cases stage with
  | entered =>
      rw [step]
      split <;> exact .inl rfl
  | opened u =>
      rw [step]
      split <;> exact .inl rfl
  | loaded u duel =>
      rw [step]
      split <;> exact .inl rfl
  | judged u duel events => exact .inr ⟨u, duel, events, rfl⟩
  | announcing duel events => cases events <;> exact .inl rfl
  | done result => exact .inl rfl

/-- An attempt keeps everybody on the roster of the stored duel. -/
theorem Stage.Fits.players {exclusive : Bool} {ply : Ply} {room : RoomId} {duel found : Duel}
    {before heard : List Event} {w : World Store.Memory} {stage : Stage} (hwf : duel.WellFormed)
    (h : stage.Fits ply room duel before (w.stored.get? room) heard)
    (hfound : w.stored.get? room = some found) :
    ∃ found', (((Service.inMemory exclusive).mutation room
        (ply.change.move ply.referee)).step w stage).1.stored.get? room = some found' ∧
      found.room.players <+: found'.room.players := by
  rcases ((Service.inMemory exclusive).mutation room (ply.change.move ply.referee)).stored_step w
    stage with hsame | ⟨u, changed, events, rfl⟩
  · exact ⟨found, by rw [hsame, hfound], List.prefix_refl _⟩
  · obtain ⟨hroom, hplay, hstored, -⟩ := h
    obtain rfl := Option.some.inj (hfound.symm.trans hstored)
    refine ⟨changed, ?_, (hwf.grows_effect (Ply.effect_of_play? hplay)).players⟩
    rw [← hroom]
    exact SortedMap.get?_insert_self _ _ _

namespace Traffic

variable {exclusive : Bool} {sink : Sink} {published : List Envelope} {t t' : Traffic Store.Memory}
  {room : RoomId} {o : Creation} {duel : Duel}

/-- What is stored of an open room is well formed. -/
theorem wellFormed_of_open (hopen : (t.scene published room).Open room o)
    (hstored : t.world.stored.get? room = some duel) : duel.WellFormed := by
  obtain ⟨earlier, later, -, hcourse⟩ := hopen.serial.exists_stored
  obtain rfl := Option.some.inj (hstored.symm.trans hcourse)
  exact hopen.created.wellFormed.course _

/-- Whatever happens, nobody leaves the roster of an open room. -/
theorem Inv.players_act? (h : Inv sink published t) {act : TrafficAct}
    (hact : t.act? (Service.inMemory exclusive) act = some t')
    (hopen : (t.scene published room).Open room o)
    (hstored : t.world.stored.get? room = some duel) :
    ∃ duel', t'.world.stored.get? room = some duel' ∧
      duel.room.players <+: duel'.room.players := by
  rcases act?_cases hact with ⟨request, referee, -, -, rfl⟩ | ⟨i, call, step, -, hcall, hnext, rfl⟩
  · exact ⟨duel, hstored, List.prefix_refl _⟩
  · by_cases hroom : room = call.request.room
    · cases hnext with
      | @establish room' code player referee world duel' events _ =>
          -- The room has been created already.
          obtain rfl : room = room' := hroom
          have hscene : (t.scene published room).calls i = _ := calls_scene_eq_some.2 ⟨hcall, rfl⟩
          obtain rfl := hopen.only i _ _ _ _ hscene
          cases hscene.symm.trans hopen.creation
      | @work room' change referee stage _ =>
          obtain rfl : room = room' := hroom
          obtain ⟨earlier, -, hfits⟩ :=
            hopen.serial.suits i change referee _ (calls_scene_eq_some.2 ⟨hcall, rfl⟩)
          exact hfits.players (hopen.created.wellFormed.course (earlier.map Turn.ply)) hstored
      | _ => exact ⟨duel, hstored, List.prefix_refl _⟩
    · obtain ⟨news, htouched, -⟩ := h.next hcall hnext
      exact ⟨duel, by rw [← hstored]; exact htouched.stored room hroom, List.prefix_refl _⟩

/-! ### What is told -/

/-- Whoever has been answered has been answered for good. -/
theorem answered_run? {service : Service σ} {t t' : Traffic σ} {acts : List TrafficAct} {i : Nat}
    {request : Request} {referee : Referee} {result : Result Reply}
    (hcall : t.calls[i]? = some ⟨request, referee, .answered result⟩)
    (hrun : t.run? service acts = some t') :
    t'.calls[i]? = some ⟨request, referee, .answered result⟩ := by
  refine run?_induction (P := fun t => t.calls[i]? = some ⟨request, referee, .answered result⟩)
    (fun t t' act hcall hact => ?_) hcall hrun
  rcases calls_act? hact hcall with hsame | ⟨step, hnext, -⟩
  · exact hsame
  · cases hnext

/-- Turns that have been taken stay in their order. -/
theorem turnsIn_run? {service : Service σ} {t t' : Traffic σ} {acts : List TrafficAct}
    (hrun : t.run? service acts = some t') (room : RoomId) :
    t.turnsIn room <+: t'.turnsIn room := by
  refine run?_induction (P := fun t' => t.turnsIn room <+: t'.turnsIn room)
    (fun t₁ t₂ act hprefix hact => ?_) (List.prefix_refl _) hrun
  rcases act?_cases hact with ⟨request, referee, -, -, rfl⟩ | ⟨i, call, step, -, -, hnext, rfl⟩
  · exact hprefix
  · rw [turnsIn_take hnext.turn_room]
    exact hprefix.trans (List.prefix_append _ _)

/-- A call has created a room with a duel, and these are the first of its turns. -/
def Founded (t : Traffic Store.Memory) (room : RoomId) (created : Duel) (turns : List Turn) :
    Prop :=
  (∃ (c : Nat) (code : String) (creator : PlayerId) (referee : Referee) (events : List Event),
    t.calls[c]? = some
      ⟨.create room code creator, referee, .answered (.ok (.view (created.viewFor creator)))⟩ ∧
    referee.Creates room code creator created events) ∧
  turns <+: t.turnsIn room

theorem founded_of_open (hopen : (t.scene published room).Open room o) {turns : List Turn}
    (hturns : turns <+: t.turnsIn room) : t.Founded room o.duel turns :=
  ⟨⟨o.call, o.code, o.player, o.referee, o.events, (calls_scene_eq_some.1 hopen.creation).1,
    hopen.created⟩, hturns⟩

theorem Founded.run? {service : Service Store.Memory} {acts : List TrafficAct} {turns : List Turn}
    (h : t.Founded room duel turns) (hrun : t.run? service acts = some t') :
    t'.Founded room duel turns := by
  obtain ⟨⟨c, code, creator, referee, events, hcall, hcreates⟩, hturns⟩ := h
  exact ⟨⟨c, code, creator, referee, events, answered_run? hcall hrun, hcreates⟩,
    hturns.trans (turnsIn_run? hrun room)⟩

/-- A view shows a player what there is to see of a room after some of its turns. -/
def ShownAfter (t : Traffic Store.Memory) (room : RoomId) (player : PlayerId) (turns : List Turn)
    (view : RoomView) : Prop :=
  ∃ created, t.Founded room created turns ∧
    view.Shows (created.course (turns.map Turn.ply)) (created.submissions (turns.map Turn.ply))
      player

/-- Who creates a room is shown the room. -/
theorem Inv.shown_create (h : Inv sink published t) {i : Nat} {code : String} {player : PlayerId}
    {referee : Referee} {view : RoomView}
    (hcall : t.calls[i]? =
      some ⟨.create room code player, referee, .answered (.ok (.view view))⟩) :
    t.ShownAfter room player [] view := by
  obtain ⟨duel, events, hopen, hview⟩ :=
    (h.scenes room).of_answered (calls_scene_eq_some.2 ⟨hcall, rfl⟩)
  obtain rfl := Reply.view.inj hview
  exact ⟨duel, founded_of_open hopen List.nil_prefix,
    hopen.created.shows_course [] (.inl hopen.created.mem_players)⟩

/-- Who changes a room is shown what has come of the turn. -/
theorem Inv.shown_change (h : Inv sink published t) {i : Nat} {change : Change}
    {player : PlayerId} {referee : Referee} {view : RoomView}
    (hplayer : (Request.change room change).player? = some player)
    (hcall : t.calls[i]? =
      some ⟨.change room change, referee, .answered (.ok (.view view))⟩) :
    ∃ earlier, t.ShownAfter room player (earlier ++ [⟨i, room, referee, change⟩]) view := by
  have hscene : (t.scene published room).calls i = _ := calls_scene_eq_some.2 ⟨hcall, rfl⟩
  obtain ⟨o, -, hopen⟩ := (h.scenes room).of_asked hscene (by simp)
  rcases hopen.serial.suits i change referee _ hscene with
    ⟨-, hbusy⟩ | ⟨earlier, later, hturns, hresult⟩
  · cases hbusy
  · have hfounded : t.Founded room o.duel (earlier ++ [⟨i, room, referee, change⟩]) := by
      refine founded_of_open hopen ⟨later, ?_⟩
      rw [List.append_assoc]
      exact hturns.symm
    refine ⟨earlier, o.duel, hfounded, ?_⟩
    rw [List.map_append, List.map_singleton]
    cases hplay : (Ply.mk referee change).play? (o.duel.course (earlier.map Turn.ply)) with
    | error failure =>
        rw [(Ply.of_play?_error hplay).2.2] at hresult
        cases hresult
    | ok played =>
        obtain ⟨hafter, -, hdone⟩ := Ply.of_play?_ok hplay
        have hcourse := (o.duel.course_concat (earlier.map Turn.ply) ⟨referee, change⟩).trans hafter
        have hwf := hopen.created.wellFormed.course (earlier.map Turn.ply)
        have hmember := hwf.mem_players (Ply.effect_of_play? hplay) hplayer
        rw [hdone] at hresult
        have hview := (Except.ok.inj hresult).trans (Change.reply_eq_view hplayer played.1)
        rw [Reply.view.inj hview, ← hcourse]
        rw [← hcourse] at hmember
        exact hopen.created.shows_course _ (.inl hmember)

/-- Who looks at a room is shown what has come of the turns by then. -/
theorem shown_get {world : World Store.Memory} {acts : List TrafficAct}
    (hrun : (start world).run? (Service.inMemory exclusive) acts = some t) {i : Nat}
    {player : PlayerId} {referee : Referee} {view : RoomView}
    (hcall : t.calls[i]? = some ⟨.get room player, referee, .answered (.ok (.view view))⟩) :
    ∃ turns, t.ShownAfter room player turns view := by
  obtain ⟨earlier, later, during, rfl, hearlier, hduring, hresult⟩ := looked_at hrun rfl hcall
  obtain ⟨published, hinv⟩ := Inv.of_run? hearlier
  obtain ⟨o, -, hopen⟩ :=
    (hinv.scenes room).of_asked (calls_scene_eq_some.2 ⟨hduring, rfl⟩) (by simp)
  obtain ⟨turns, more, hturns, hcourse⟩ := hopen.serial.exists_stored
  obtain ⟨duel, hstored, rfl, hseen⟩ := seen_of_get hresult.symm
  obtain rfl := Option.some.inj (hstored.symm.trans hcourse)
  have hfounded : during.Founded room o.duel turns := founded_of_open hopen ⟨more, hturns.symm⟩
  rw [run?_append, hearlier] at hrun
  exact ⟨turns, o.duel, hfounded.run? hrun, hopen.created.shows_course _ hseen⟩

/-! ### Who is refused -/

/-- A call has been made to look at a room that has two members, by somebody else. -/
structure Refuses (t : Traffic Store.Memory) (i : Nat) (room : RoomId) (player : PlayerId)
    (referee : Referee) : Prop where
  inv : ∃ sink published, Inv sink published t
  full : ∃ duel, t.world.stored.get? room = some duel ∧ duel.Excludes player
  call : ∃ phase, t.calls[i]? = some ⟨.get room player, referee, phase⟩ ∧
    (phase = .called ∨ phase.told? = some (.error (.refused (.roomAccessDenied room))))

theorem Refuses.act? {i : Nat} {player : PlayerId} {referee : Referee} {act : TrafficAct}
    (h : t.Refuses i room player referee)
    (hact : t.act? (Service.inMemory exclusive) act = some t') :
    t'.Refuses i room player referee := by
  obtain ⟨⟨sink, published, hinv⟩, ⟨duel, hstored, hexcludes⟩, phase, hcall, hphase⟩ := h
  have hcall' : ∃ phase, t'.calls[i]? = some ⟨.get room player, referee, phase⟩ ∧
      (phase = .called ∨ phase.told? = some (.error (.refused (.roomAccessDenied room)))) := by
    rcases calls_act? hact hcall with hsame | ⟨step, hnext, hmoved⟩
    · exact ⟨phase, hsame, hphase⟩
    · refine ⟨step.phase, hmoved, .inr ?_⟩
      rcases hphase with rfl | htold
      · cases hnext with
        | look =>
            rw [get_of_excludes hstored hexcludes]
            rfl
      · exact hnext.told htold
  obtain ⟨phase', hcalled, hphase'⟩ := hcall'
  obtain ⟨news, hinv'⟩ := hinv.act? hact
  obtain ⟨o, -, hopen⟩ := (hinv.scenes room).of_asked (calls_scene_eq_some.2 ⟨hcall, rfl⟩) (by simp)
  obtain ⟨o', -, hopen'⟩ :=
    (hinv'.scenes room).of_asked (calls_scene_eq_some.2 ⟨hcalled, rfl⟩) (by simp)
  obtain ⟨duel', hstored', hplayers⟩ := hinv.players_act? hact hopen hstored
  have hexcludes' := hexcludes.of_prefix (wellFormed_of_open hopen' hstored') hplayers
  exact ⟨⟨sink, _, hinv'⟩, ⟨duel', hstored', hexcludes'⟩, phase', hcalled, hphase'⟩

theorem Refuses.run? {i : Nat} {player : PlayerId} {referee : Referee} {acts : List TrafficAct}
    (h : t.Refuses i room player referee)
    (hrun : t.run? (Service.inMemory exclusive) acts = some t') :
    t'.Refuses i room player referee :=
  run?_induction (P := fun t => t.Refuses i room player referee)
    (fun _ _ _ hrefuses hact => hrefuses.act? hact) h hrun

theorem Refuses.answer {i : Nat} {player : PlayerId} {referee : Referee} {result : Result Reply}
    (h : t.Refuses i room player referee) (hanswer : t.answer? i = some result) :
    result = .error (.refused (.roomAccessDenied room)) := by
  obtain ⟨phase, hcall, hphase⟩ := h.call
  obtain ⟨request, referee', hanswered⟩ := answer?_eq_some_iff.1 hanswer
  obtain ⟨-, -, rfl⟩ := Call.mk.inj (Option.some.inj (hcall.symm.trans hanswered))
  rcases hphase with hcalled | htold
  · cases hcalled
  · exact Option.some.inj htold

/-- What is told once a room has been read is answered with the next step. -/
theorem answer_of_looked (service : Service σ) {t : Traffic σ} {i : Nat} {player : PlayerId}
    {referee : Referee} {result : Result Reply}
    (hcall : t.calls[i]? = some ⟨.get room player, referee, .looked result⟩) :
    ∃ t', t.run? service [.proceed i] = some t' ∧ t'.answer? i = some result := by
  refine ⟨t.take i (t.onward (.answered result)), ?_, ?_⟩
  · rw [run?_cons, act?, hcall]
    rfl
  · rw [answer?, calls_take hcall, if_pos rfl]
    rfl

/-- Whoever looks at a room does not wait for anybody: two steps lead to the answer. -/
theorem exists_answer_get (service : Service σ) {t : Traffic σ} {i : Nat} {player : PlayerId}
    {referee : Referee} {phase : CallPhase}
    (hcall : t.calls[i]? = some ⟨.get room player, referee, phase⟩)
    (hphase : phase = .called ∨ phase.told?.isSome) :
    ∃ n t' result, n ≤ 2 ∧ t.run? service (.replicate n (.proceed i)) = some t' ∧
      t'.answer? i = some result := by
  rcases hphase with rfl | htold
  · let result := (service.get t.world room player).map fun duel =>
      Reply.view (duel.viewFor player)
    have hread : t.act? service (.proceed i) = some (t.take i (t.onward (.looked result))) := by
      rw [act?, hcall]
      rfl
    have hlooked := (calls_take hcall (t.onward (.looked result)) i).trans (if_pos rfl)
    obtain ⟨t', hrun, hanswer⟩ := answer_of_looked service hlooked
    refine ⟨2, t', result, Nat.le_refl 2, ?_, hanswer⟩
    show t.run? service (.proceed i :: [.proceed i]) = some t'
    rw [run?_cons, hread]
    exact hrun
  · cases phase with
    | looked result =>
        obtain ⟨t', hrun, hanswer⟩ := answer_of_looked service hcall
        exact ⟨1, t', result, Nat.le_succ 1, hrun, hanswer⟩
    | answered result =>
        refine ⟨0, t, result, Nat.zero_le 2, rfl, ?_⟩
        rw [answer?, hcall]
        rfl
    | _ => cases htold

theorem refuses_call {world : World Store.Memory} {acts : List TrafficAct} {player : PlayerId}
    {referee : Referee} (hrun : (start world).run? (Service.inMemory exclusive) acts = some t)
    (hact : t.act? (Service.inMemory exclusive) (.call (.get room player) referee) = some t')
    (hstored : t.world.stored.get? room = some duel) (hexcludes : duel.Excludes player) :
    t'.Refuses t.calls.length room player referee := by
  obtain ⟨published, hinv⟩ := Inv.of_run? hrun
  obtain ⟨news, hinv'⟩ := hinv.act? hact
  rcases act?_cases hact with ⟨request, judge, hcall, -, rfl⟩ | ⟨i, call, step, hcaller, -⟩
  · obtain ⟨rfl, rfl⟩ := TrafficAct.call.inj hcall
    refine ⟨⟨_, _, hinv'⟩, ⟨duel, hstored, hexcludes⟩, .called, ?_, .inl rfl⟩
    rw [calls_concat, if_pos rfl]
  · cases hcaller

/-- Who looks at a room that has two others is refused, and has not long to wait for it. -/
theorem refused_get {world : World Store.Memory} {earlier later : List TrafficAct}
    {before : Traffic Store.Memory} {player : PlayerId} {referee : Referee}
    (hbefore : (start world).run? (Service.inMemory exclusive) earlier = some before)
    (hstored : before.world.stored.get? room = some duel) (hexcludes : duel.Excludes player)
    (hrun : (start world).run? (Service.inMemory exclusive)
      (earlier ++ .call (.get room player) referee :: later) = some t) :
    (∀ result, t.answer? before.calls.length = some result →
      result = .error (.refused (.roomAccessDenied room))) ∧
    ∃ n t', n ≤ 2 ∧ t.run? (Service.inMemory exclusive)
        (.replicate n (.proceed before.calls.length)) = some t' ∧
      t'.answer? before.calls.length = some (.error (.refused (.roomAccessDenied room))) := by
  rw [run?_append, hbefore] at hrun
  change before.run? _ (.call (.get room player) referee :: later) = some t at hrun
  rw [run?_cons] at hrun
  obtain ⟨called, hact, hlater⟩ := Option.bind_eq_some_iff.1 hrun
  have hrefuses := (refuses_call hbefore hact hstored hexcludes).run? hlater
  obtain ⟨phase, hcall, hphase⟩ := hrefuses.call
  have hasked : phase = .called ∨ phase.told?.isSome :=
    hphase.imp_right fun htold => Option.isSome_of_mem htold
  obtain ⟨n, t', result, hn, hsteps, hanswer⟩ :=
    exists_answer_get (Service.inMemory exclusive) hcall hasked
  refine ⟨fun result' hanswer' => hrefuses.answer hanswer', n, t', hn, hsteps, ?_⟩
  rw [hanswer, (hrefuses.run? hsteps).answer hanswer]

end Traffic

/-! ### The audience -/

/-- **Who sees what.** Whatever the calls and however their steps are mixed:

* Whoever is answered with a view of a room is shown what there is to see after some of the
  turns in the room, the last of which is the player's own turn in the case of a change.
* Whoever looks at a room that has two others is answered, without waiting, that access is
  denied, even if the room is closed.

The same is true of a session of calls on tables, where one call is made after the other, as
long as no room comes to 2³¹ rounds and no round to more than 2³¹ guesses. -/
theorem who_sees_what (exclusive : Bool) :
    (∀ (world : World Store.Memory) (acts : List TrafficAct) (t : Traffic Store.Memory),
      (Traffic.start world).run? (Service.inMemory exclusive) acts = some t →
      (∀ (i : Nat) (request : Request) (referee : Referee) (player : PlayerId) (view : RoomView),
        t.calls[i]? = some ⟨request, referee, .answered (.ok (.view view))⟩ →
        request.player? = some player →
        ∃ turns, t.ShownAfter request.room player turns view ∧
          ∀ change, request = .change request.room change →
            turns.getLast? = some ⟨i, request.room, referee, change⟩) ∧
      ∀ earlier room player referee later before duel,
        acts = earlier ++ .call (.get room player) referee :: later →
        (Traffic.start world).run? (Service.inMemory exclusive) earlier = some before →
        before.world.stored.get? room = some duel → duel.Excludes player →
        (∀ result, t.answer? before.calls.length = some result →
          result = .error (.refused (.roomAccessDenied room))) ∧
        ∃ n t', n ≤ 2 ∧ t.run? (Service.inMemory exclusive)
            (.replicate n (.proceed before.calls.length)) = some t' ∧
          t'.answer? before.calls.length = some (.error (.refused (.roomAccessDenied room)))) ∧
    ∀ (sink : Sink) (asks : List Ask),
      (asks.filterMap Ask.created?).Nodup → (∀ ask ∈ asks, ask.InRange) →
      (∀ room duel,
        ((Service.inMemory exclusive).worldAfter ⟨.empty, sink⟩ asks).stored.get? room = some duel →
          duel.Small) →
      (∀ earlier referee grant request later player view,
        asks = earlier ++ .request referee grant request :: later →
        request.player? = some player →
        ((Service.inTables exclusive).answer
            ((Service.inTables exclusive).worldAfter ⟨.empty, sink⟩ earlier)
            (.request referee grant request)).2 = .reply (.ok (.view view)) →
        ∃ created plies,
          Founded (earlier ++ [.request referee grant request]) request.room created plies ∧
          view.Shows (created.course plies) (created.submissions plies) player) ∧
      ∀ earlier between referee grant room player later duel,
        asks = earlier ++ (between ++ .request referee grant (.get room player) :: later) →
        (Service.inTables exclusive).store.load
            ((Service.inTables exclusive).worldAfter ⟨.empty, sink⟩ earlier).stored room =
          .ok (some duel) → duel.Excludes player →
        ((Service.inTables exclusive).answer
            ((Service.inTables exclusive).worldAfter ⟨.empty, sink⟩ (earlier ++ between))
            (.request referee grant (.get room player))).2 =
          .reply (.error (.refused (.roomAccessDenied room))) := by
  refine ⟨fun world acts t hrun => ⟨?_, ?_⟩, fun sink asks hdistinct hrange hsmall => ?_⟩
  · intro i request referee player view hcall hplayer
    obtain ⟨published, hinv⟩ := Traffic.Inv.of_run? hrun
    cases request with
    | create room code creator =>
        obtain rfl := Option.some.inj hplayer
        exact ⟨[], hinv.shown_create hcall, fun change heq => by cases heq⟩
    | get room looker =>
        obtain rfl := Option.some.inj hplayer
        obtain ⟨turns, hshown⟩ := Traffic.shown_get hrun hcall
        exact ⟨turns, hshown, fun change heq => by cases heq⟩
    | change room change =>
        obtain ⟨earlier, hshown⟩ := hinv.shown_change hplayer hcall
        refine ⟨_, hshown, fun change' heq => ?_⟩
        obtain ⟨-, rfl⟩ := Request.change.inj heq
        exact List.getLast?_concat
  · rintro earlier room player referee later before duel rfl hbefore hstored hexcludes
    exact Traffic.refused_get hbefore hstored hexcludes hrun
  · have horderly : Orderly .empty asks := ⟨hdistinct, fun _ _ => rfl, hrange⟩
    refine ⟨?_, ?_⟩
    · rintro earlier referee grant request later player view rfl hplayer htold
      exact shows_of_answer horderly hsmall hplayer htold
    · rintro earlier between referee grant room player later duel rfl hload hexcludes
      rw [Service.answer_get, denied_of_excludes horderly hsmall hload hexcludes]
      rfl

namespace Sample

/-- A stranger. -/
def carol : PlayerId := ⟨3⟩

/-- In the end a stranger looks at the room. -/
def crowdedRoom : List TrafficAct :=
  busyRoom ++ .call (.get ⟨7⟩ carol) referee :: steps 6 2

/-- Who has been shown which room. -/
def shown? (t : Traffic Store.Memory) (i : Nat) : Option (PlayerId × RoomId) :=
  t.calls[i]?.bind fun call =>
    match call.phase with
    | .answered (.ok (.view _)) =>
      call.request.player?.map fun player => (player, call.request.room)
    | _ => none

theorem of_shown? {t : Traffic Store.Memory} {i : Nat} {player : PlayerId} {room : RoomId}
    (h : shown? t i = some (player, room)) :
    ∃ request referee view,
      t.calls[i]? = some ⟨request, referee, .answered (.ok (.view view))⟩ ∧
      request.player? = some player ∧ request.room = room := by
  obtain ⟨⟨request, referee, phase⟩, hcall, hphase⟩ := Option.bind_eq_some_iff.1 h
  split at hphase
  · next view hanswered =>
    obtain rfl : phase = .answered (.ok (.view view)) := hanswered
    obtain ⟨asker, hasker, heq⟩ := Option.map_eq_some_iff.1 hphase
    obtain ⟨rfl, rfl⟩ := Prod.mk.inj heq
    exact ⟨request, referee, view, hcall, hasker, rfl⟩
  · cases hphase

/-- In the end a stranger looks at the room. -/
def lateEvening : List Ask := evening ++ [.request referee .granted (.get ⟨7⟩ carol)]

/-- The guess with which Alice finds the word. -/
def find : Ask := .request referee .granted (.change ⟨7⟩ (.guess alice "crane"))

theorem orderly_lateEvening : Orderly .empty lateEvening where
  distinct := by decide
  new _ _ := rfl
  inRange := by simp [lateEvening, evening, Ask.InRange, referee]

/-- Looking changes nothing. -/
theorem small_lateEvening :
    ((Service.inMemory true).worldAfter ⟨.empty, .recorder⟩ lateEvening).stored.Small := by
  rw [lateEvening, Service.worldAfter_append]
  exact small_evening

/-- The view in an answer. -/
def view? : Told → Option RoomView
  | .reply (.ok (.view view)) => some view
  | _ => none

theorem of_view? {told : Told} (h : (view? told).isSome) :
    ∃ view, told = .reply (.ok (.view view)) := by
  rw [view?.eq_def] at h
  split at h
  · next view => exact ⟨view, rfl⟩
  · cases h

theorem excludes_carol {duel : Duel} (h : duel.room.players = [alice, bob]) :
    duel.Excludes carol := by
  rw [Duel.Excludes, h]
  decide

/-- Before the stranger comes the room is full. -/
theorem exists_run_busyRoom :
    ∃ t duel, (Traffic.start empty).run? (Service.inMemory true) busyRoom = some t ∧
      t.calls.length = 6 ∧ t.world.stored.get? ⟨7⟩ = some duel ∧ duel.Excludes carol := by
  have hoccurs : ((Traffic.start empty).run? (Service.inMemory true) busyRoom).map
      (fun t => (t.calls.length, (t.world.stored.get? ⟨7⟩).map fun duel => duel.room.players)) =
        some (6, some [alice, bob]) := by
    decide +kernel
  obtain ⟨t, hrun, hfacts⟩ := Option.map_eq_some_iff.1 hoccurs
  obtain ⟨hlength, hplayers⟩ := Prod.mk.inj hfacts
  obtain ⟨duel, hstored, hroster⟩ := Option.map_eq_some_iff.1 hplayers
  exact ⟨t, duel, hrun, hlength, hstored, excludes_carol hroster⟩

/-- In the end Bob has been shown the room, and the stranger has been answered. -/
theorem exists_run_crowdedRoom :
    ∃ t result, (Traffic.start empty).run? (Service.inMemory true) crowdedRoom = some t ∧
      shown? t 5 = some (bob, ⟨7⟩) ∧ t.answer? 6 = some result := by
  have hoccurs : ((Traffic.start empty).run? (Service.inMemory true) crowdedRoom).map
      (fun t => (shown? t 5, (t.answer? 6).isSome)) = some (some (bob, ⟨7⟩), true) := by
    decide +kernel
  obtain ⟨t, hrun, hfacts⟩ := Option.map_eq_some_iff.1 hoccurs
  obtain ⟨hbob, hcarol⟩ := Prod.mk.inj hfacts
  obtain ⟨result, hresult⟩ := Option.isSome_iff_exists.1 hcarol
  exact ⟨t, result, hrun, hbob, hresult⟩

/-- When Alice finds the word the tables are those of a full room, and she is shown it. -/
theorem told_find :
    (∃ duel, (Service.inTables true).store.load
        ((Service.inTables true).worldAfter ⟨.empty, .recorder⟩ (evening.take 3)).stored ⟨7⟩ =
      .ok (some duel) ∧ duel.Excludes carol) ∧
    ∃ view, ((Service.inTables true).answer
      ((Service.inTables true).worldAfter ⟨.empty, .recorder⟩ (evening.take 3)) find).2 =
        .reply (.ok (.view view)) := by
  have hsplit : lateEvening = evening.take 3 ++ find :: lateEvening.drop 4 := rfl
  have horderly := orderly_lateEvening
  have hsmall := small_lateEvening
  rw [hsplit] at horderly hsmall
  obtain ⟨hmirrors, -, htold⟩ := (mirrors_empty .recorder).next horderly hsmall
  constructor
  · have hmembers : (((Service.inMemory true).worldAfter ⟨.empty, .recorder⟩
        (evening.take 3)).stored.get? ⟨7⟩).map (fun duel => duel.room.players) =
          some [alice, bob] := by
      decide +kernel
    obtain ⟨duel, hstored, hroster⟩ := Option.map_eq_some_iff.1 hmembers
    have hload := hmirrors.load ⟨7⟩
    rw [hstored] at hload
    exact ⟨duel, hload, excludes_carol hroster⟩
  · have hview : (view? ((Service.inMemory true).answer
        ((Service.inMemory true).worldAfter ⟨.empty, .recorder⟩ (evening.take 3))
        find).2).isSome := by
      decide +kernel
    rw [htold]
    exact of_view? hview

end Sample

/-- Bob is shown the room while he and Alice play, Alice when she has found the word, and Carol
is refused. -/
theorem who_sees_what_of_crowded_room :
    (∃ t view turns,
      (Traffic.start Sample.empty).run? (Service.inMemory true) Sample.crowdedRoom = some t ∧
      t.answer? 5 = some (.ok (.view view)) ∧ t.ShownAfter ⟨7⟩ Sample.bob turns view ∧
      t.answer? 6 = some (.error (.refused (.roomAccessDenied ⟨7⟩)))) ∧
    (∃ view created plies,
      ((Service.inTables true).answer
        ((Service.inTables true).worldAfter ⟨.empty, .recorder⟩ (Sample.evening.take 3))
        Sample.find).2 = .reply (.ok (.view view)) ∧
      Founded (Sample.evening.take 4) ⟨7⟩ created plies ∧
      view.Shows (created.course plies) (created.submissions plies) Sample.alice) ∧
    ((Service.inTables true).answer
      ((Service.inTables true).worldAfter ⟨.empty, .recorder⟩ Sample.evening)
      (.request Sample.referee .granted (.get ⟨7⟩ Sample.carol))).2 =
        .reply (.error (.refused (.roomAccessDenied ⟨7⟩))) := by
  obtain ⟨htraffic, hsession⟩ := who_sees_what true
  obtain ⟨hshown, hdenied⟩ := hsession .recorder Sample.lateEvening
    Sample.orderly_lateEvening.distinct Sample.orderly_lateEvening.inRange Sample.small_lateEvening
  obtain ⟨⟨found, hload, hexcludes⟩, view, hview⟩ := Sample.told_find
  refine ⟨?_, ?_, ?_⟩
  · obtain ⟨before, duel, hbefore, hlength, hstored, hfull⟩ := Sample.exists_run_busyRoom
    obtain ⟨t, result, hrun, hbob, hresult⟩ := Sample.exists_run_crowdedRoom
    obtain ⟨hviews, hrefused⟩ := htraffic Sample.empty Sample.crowdedRoom t hrun
    obtain ⟨request, judge, view, hcall, hplayer, hroom⟩ := Sample.of_shown? hbob
    obtain ⟨turns, hafter, -⟩ := hviews 5 request judge Sample.bob view hcall hplayer
    obtain ⟨hanswer, -⟩ := hrefused Sample.busyRoom ⟨7⟩ Sample.carol Sample.referee
      (Sample.steps 6 2) before duel rfl hbefore hstored hfull
    rw [hlength] at hanswer
    rw [hroom] at hafter
    exact ⟨t, view, turns, hrun, Traffic.answer?_eq_some_iff.2 ⟨request, judge, hcall⟩, hafter,
      by rw [hresult, hanswer result hresult]⟩
  · obtain ⟨created, plies, hfounded, hshows⟩ := hshown (Sample.evening.take 3) Sample.referee
      .granted (.change ⟨7⟩ (.guess Sample.alice "crane")) (Sample.lateEvening.drop 4) Sample.alice
      view rfl rfl hview
    exact ⟨view, created, plies, hview, hfounded, hshows⟩
  · exact hdenied (Sample.evening.take 3) (Sample.evening.drop 3) Sample.referee .granted ⟨7⟩
      Sample.carol [] found rfl hload hexcludes

end WordDuel
