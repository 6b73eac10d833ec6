import WordDuel.Proofs.Identifiers
import WordDuel.Proofs.Keeping
import WordDuel.Proofs.Locality
import WordDuel.Service.Session
/-!
# WordDuel.Proofs.Independence

**Rooms do not get in each other's way.** What a store holds comes apart into what belongs to a
room and the rest (`Store.Separates`). A call about a room is answered from what belongs to the
room, changes nothing of the rest, and announces things about that room only
(`Service.answer_confined`). So whatever calls about other rooms come in between, the calls about
one room are answered, and leave behind what they leave, as if they were the only ones
(`rooms_apart`). Nothing is assumed of what the store holds at first.
-/

namespace WordDuel

/-! ### The room of a duel stays the same -/

namespace Duel.BelongsTo

variable {duel : Duel} {room : RoomId} {referee : Referee}

theorem createRoom (referee : Referee) (room : RoomId) (language : Language) (creator : PlayerId) :
    (referee.createRoom room language creator).1.BelongsTo room where
  id := rfl
  rounds _ hround := by cases hround

theorem entered (h : duel.BelongsTo room) (player : PlayerId) :
    (Referee.entered duel player).BelongsTo room where
  id := by
    rw [Duel.id, Referee.entered, admitted_eq]
    exact h.id
  rounds := h.rounds

theorem opened (h : duel.BelongsTo room) {round : Round}
    (hopen : referee.opening? duel = .ok round) : (duel.opened round).BelongsTo room where
  id := h.id
  rounds r hr := by
    obtain ⟨-, target, -, rfl⟩ := referee.opening?_eq_ok_iff.1 hopen
    rcases List.mem_append.1 hr with hr | hr
    · exact h.rounds r hr
    · rw [List.mem_singleton.1 hr]
      exact h.id

theorem active (h : duel.BelongsTo room) {active : Referee.Active}
    (hactive : referee.active? duel = .ok active) :
    active.duel.BelongsTo room ∧ active.round.room = room := by
  have hduel : active.duel.BelongsTo room := by
    rcases referee.active?_cases hactive with ⟨-, -, hsame⟩ | ⟨-, hopen, hopened⟩
    · rw [hsame]
      exact h
    · rw [hopened]
      exact h.opened hopen
  obtain ⟨number, -, hround⟩ :=
    Option.bind_eq_some_iff.1 (referee.currentRound?_active? hactive)
  exact ⟨hduel, hduel.rounds _ (List.mem_of_find?_eq_some hround)⟩

theorem setRound (h : duel.BelongsTo room) {round : Round} (hround : round.room = room) :
    (duel.setRound round).BelongsTo room where
  id := h.id
  rounds r hr := by
    rcases mem_replaceRound hr with rfl | hr
    · exact hround
    · exact h.rounds r hr

theorem settled (h : duel.BelongsTo room) {round : Round} (hround : round.room = room) :
    (referee.settled duel round).BelongsTo room := by
  rw [Referee.settled]
  split
  · have hended : (duel.setRound (referee.ended round)).BelongsTo room := h.setRound hround
    exact ⟨h.id, hended.rounds⟩
  · exact h.setRound hround

/-- No attempt takes a duel to another room. -/
theorem effect (h : duel.BelongsTo room) {change : Change} {duel' : Duel} {events : List Event}
    (heffect : referee.Effect duel change duel' events) : duel'.BelongsTo room := by
  cases heffect with
  | enter => exact h.entered _
  | pair _ _ _ hopen => exact (h.entered _).opened hopen
  | guess _ hactive hjudge =>
      obtain ⟨hduel, hround⟩ := h.active hactive
      obtain ⟨-, -, -, rfl⟩ := referee.judge_eq_ok_iff.1 hjudge
      exact hduel.settled hround
  | start _ hactive => exact (h.active hactive).1
  | close => exact ⟨h.id, h.rounds⟩

end Duel.BelongsTo

/-! ### What a store holds of a room, and the rest -/

section Separates

variable {σ π ρ : Type}

/-- What a store does with one room depends on what it holds of the room, and leaves the rest
alone. What it holds of other rooms is part of the rest. -/
structure Store.Separates (store : Store σ) (own : RoomId → σ → π) (rest : RoomId → σ → ρ) :
    Prop where
  others : ∀ {room other s s'}, other ≠ room → rest room s = rest room s' →
    own other s = own other s'
  load : ∀ {room s s'}, own room s = own room s' → store.load s room = store.load s' room
  loadRound : ∀ {room s s'} (number : Nat), own room s = own room s' →
    store.loadRound s room number = store.loadRound s' room number
  openUnit : ∀ s room exclusive,
    store.openUnit s room exclusive = .ok (Store.freshUnit room exclusive)
  loadIn : ∀ s room exclusive, store.loadIn s (Store.freshUnit room exclusive) =
    (store.load s room).map fun duel? => (duel?, ⟨room, exclusive, some duel?⟩)
  insert : ∀ {room s s' duel}, duel.BelongsTo room → own room s = own room s' →
    (store.insert s duel).map (own room) = (store.insert s' duel).map (own room)
  insert_rest : ∀ {room s s' duel}, duel.BelongsTo room → store.insert s duel = .ok s' →
    rest room s' = rest room s
  commit : ∀ {room s s' exclusive duel duel'}, store.load s room = .ok (some duel) →
    (duel.BelongsTo room → duel'.BelongsTo room) → own room s = own room s' →
    (store.commit s ⟨room, exclusive, some (some duel)⟩ duel').map (own room) =
      (store.commit s' ⟨room, exclusive, some (some duel)⟩ duel').map (own room)
  commit_rest : ∀ {room s s' exclusive duel duel'}, store.load s room = .ok (some duel) →
    (duel.BelongsTo room → duel'.BelongsTo room) →
    store.commit s ⟨room, exclusive, some (some duel)⟩ duel' = .ok s' → rest room s' = rest room s

end Separates

/-! ### Memory -/

namespace Store.Memory

theorem erase_insert (rooms : Memory) (room : RoomId) (duel : Duel) :
    (rooms.insert room duel).erase room = rooms.erase room := by
  refine SortedMap.ext_get? fun other => ?_
  by_cases hother : other = room
  · rw [hother, SortedMap.get?_erase_self, SortedMap.get?_erase_self]
  · rw [SortedMap.get?_erase_of_ne _ hother, SortedMap.get?_erase_of_ne _ hother,
      SortedMap.get?_insert_of_ne _ _ hother]

theorem separates :
    Store.memory.Separates (fun room rooms => rooms.get? room)
      fun room rooms => rooms.erase room where
  others {room other s s'} hother hrest := by
    rw [← SortedMap.get?_erase_of_ne s hother, hrest, SortedMap.get?_erase_of_ne s' hother]
  load hsame := congrArg Except.ok hsame
  loadRound number hsame := by
    simp only [Store.memory, hsame]
  openUnit _ _ _ := rfl
  loadIn _ _ _ := rfl
  insert hduel _ := by
    simp only [Store.memory, Except.map, hduel.id, SortedMap.get?_insert_self]
  insert_rest hduel hinsert := by
    obtain rfl := Except.ok.inj hinsert
    rw [hduel.id]
    exact erase_insert ..
  commit _ _ _ := by
    simp only [Store.memory, Except.map, SortedMap.get?_insert_self]
  commit_rest _ _ hcommit := by
    obtain rfl := Except.ok.inj hcommit
    exact erase_insert ..

end Store.Memory

/-! ### Tables -/

namespace Tables

variable {room : RoomId} {duel : Duel} {before : Option Duel} {t t' : Tables}

theorem write_own (hduel : duel.BelongsTo room)
    (hsame : t.only (· = .value room) = t'.only (· = .value room)) :
    (t.write before duel).map (only (· = .value room)) =
      (t'.write before duel).map (only (· = .value room)) := by
  have habout : About only room fun t => t.write? before duel := about_write? hduel
  have hwrite (t : Tables) : (t.write before duel).map (only (· = .value room)) =
      (t.only (· = .value room)).write before duel := by
    rw [write, write, habout.here _ t (by simp)]
    cases t.write? before duel <;> rfl
  rw [hwrite, hwrite, hsame]

theorem write_rest (hduel : duel.BelongsTo room) (hwrite : t.write before duel = .ok t') :
    t'.only (· ≠ .value room) = t.only (· ≠ .value room) := by
  rw [write] at hwrite
  split at hwrite
  · next written hwritten =>
    obtain rfl := Except.ok.inj hwrite
    exact (about_write? hduel).elsewhere _ t _ (by simp) hwritten
  · cases hwrite

theorem separates : Store.tables.Separates (fun room t => t.only (· = .value room))
    fun room t => t.only (· ≠ .value room) where
  others {room other s s'} hother hrest := by
    have hwithin (t : Tables) :
        (t.only (· ≠ .value room)).only (· = .value other) = t.only (· = .value other) :=
      only_only (fun place hplace => by simp [of_decide_eq_true hplace, hother]) t
    rw [← hwithin s, hrest, hwithin s']
  load {room s s'} hsame := by
    show s.load room = s'.load room
    rw [← load_only (p := (· = .value room)) (by simp), hsame, load_only (by simp)]
  loadRound {room s s'} number hsame := by
    show s.loadRound room number = s'.loadRound room number
    rw [← loadRound_only (p := (· = .value room)) (by simp), hsame, loadRound_only (by simp)]
  openUnit _ _ _ := rfl
  loadIn s room exclusive := by
    simp only [Store.tables, Store.freshUnit]
    cases s.load room <;> rfl
  insert hduel hsame := write_own hduel hsame
  insert_rest hduel hinsert := write_rest hduel hinsert
  commit hload hduel hsame := write_own (hduel (belongsTo_of_load hload)) hsame
  commit_rest hload hduel hcommit := write_rest (hduel (belongsTo_of_load hload)) hcommit

end Tables

/-! ### What is announced about a room -/

namespace Sink

/-- What the leaves have taken in about a room, in order. -/
def heard (sink : Sink) (room : RoomId) : List (String × List Envelope) :=
  sink.leaves.map fun leaf => (leaf.1, leaf.2.filter fun envelope => envelope.room = room)

variable {room other : RoomId} {events : List Event}

theorem heard_publishAll_self (sink : Sink) : (sink.publishAll room events).heard room =
    (sink.heard room).map fun leaf => (leaf.1, leaf.2 ++ events.map (⟨room, ·⟩)) := by
  have hall : (events.map (Envelope.mk room)).filter (fun envelope => envelope.room = room) =
      events.map (Envelope.mk room) :=
    List.filter_eq_self.2 fun envelope henvelope => by
      obtain ⟨event, -, rfl⟩ := List.mem_map.1 henvelope
      exact decide_eq_true rfl
  rw [heard, leaves_publishAll, heard, List.map_map, List.map_map]
  refine List.map_congr_left fun leaf _ => ?_
  simp only [Function.comp_def, List.filter_append, hall]

theorem heard_publishAll_other (hother : other ≠ room) (sink : Sink) :
    (sink.publishAll room events).heard other = sink.heard other := by
  have hnone :
      (events.map (Envelope.mk room)).filter (fun envelope => envelope.room = other) = [] :=
    List.filter_eq_nil_iff.2 fun envelope henvelope => by
      obtain ⟨event, -, rfl⟩ := List.mem_map.1 henvelope
      simpa using hother.symm
  rw [heard, leaves_publishAll, heard, List.map_map]
  refine List.map_congr_left fun leaf _ => ?_
  simp only [Function.comp_def, List.filter_append, hnone, List.append_nil]

end Sink

/-! ### Calls that are about one room -/

section Confined

variable {σ π ρ α : Type} {own : RoomId → σ → π} {rest : RoomId → σ → ρ} {room : RoomId}

/-- What comes of something depends on what is stored of a room; the rest stays as it is, and
only about the room is anything announced. -/
structure Confined (own : RoomId → σ → π) (rest : RoomId → σ → ρ) (room : RoomId)
    (act : World σ → World σ × α) : Prop where
  here : ∀ w w' : World σ, own room w.stored = own room w'.stored →
    (act w).2 = (act w').2 ∧ own room (act w).1.stored = own room (act w').1.stored ∧
      ∃ events, (act w).1.sink = w.sink.publishAll room events ∧
        (act w').1.sink = w'.sink.publishAll room events
  rest : ∀ w : World σ, rest room (act w).1.stored = rest room w.stored

namespace Confined

theorem look {f : σ → α} (hf : ∀ s s', own room s = own room s' → f s = f s') :
    Confined own rest room fun w => (w, f w.stored) where
  here _ _ hsame := ⟨hf _ _ hsame, hsame, [], rfl, rfl⟩
  rest _ := rfl

theorem skip (a : α) : Confined own rest room fun w => (w, a) :=
  look (f := fun _ => a) fun _ _ _ => rfl

theorem map {β : Type} {act : World σ → World σ × α} (h : Confined own rest room act) (f : α → β) :
    Confined own rest room fun w => ((act w).1, f (act w).2) where
  here w w' hsame := by
    obtain ⟨htold, hrest⟩ := h.here w w' hsame
    exact ⟨congrArg f htold, hrest⟩
  rest := h.rest

end Confined

/-- What comes of storing a duel of a room, of which some events are to be announced. -/
def World.put (w : World σ) (room : RoomId) (duel : Duel) (events : List Event) :
    Result σ → World σ × Result Duel
  | .error failure => (w, .error failure)
  | .ok stored => (⟨stored, w.sink.publishAll room events⟩, .ok duel)

theorem World.put_here {w w' : World σ} (hsame : own room w.stored = own room w'.stored)
    {stored stored' : Result σ} (hstored : stored.map (own room) = stored'.map (own room))
    (duel : Duel) (events : List Event) :
    (w.put room duel events stored).2 = (w'.put room duel events stored').2 ∧
      own room (w.put room duel events stored).1.stored =
        own room (w'.put room duel events stored').1.stored ∧
      ∃ news, (w.put room duel events stored).1.sink = w.sink.publishAll room news ∧
        (w'.put room duel events stored').1.sink = w'.sink.publishAll room news := by
  cases stored with
  | error failure =>
      cases stored' with
      | error failure' =>
          obtain rfl := Except.error.inj hstored
          exact ⟨rfl, hsame, [], rfl, rfl⟩
      | ok s' => cases hstored
  | ok s =>
      cases stored' with
      | error failure' => cases hstored
      | ok s' => exact ⟨rfl, Except.ok.inj hstored, events, rfl, rfl⟩

theorem World.put_rest {w : World σ} {stored : Result σ}
    (hstored : ∀ s, stored = .ok s → rest room s = rest room w.stored) (duel : Duel)
    (events : List Event) :
    rest room (w.put room duel events stored).1.stored = rest room w.stored := by
  cases stored with
  | error failure => rfl
  | ok s => exact hstored s rfl

end Confined

/-! ### Calls of a service -/

/-- The room that a call is about. -/
def Ask.room : Ask → RoomId
  | .request _ _ asked => asked.room
  | .load room | .loadRound room _ => room

namespace Service

variable {σ π ρ : Type} {service : Service σ} {own : RoomId → σ → π} {rest : RoomId → σ → ρ}

theorem create_confined (h : service.store.Separates own rest) (referee : Referee) (room : RoomId)
    (code : String) (player : PlayerId) :
    Confined own rest room fun w => service.create referee w room code player := by
  cases hlanguage : Language.ofCode? code with
  | none =>
      simp only [create, establish, hlanguage]
      exact .skip _
  | some language =>
      have hcreate (w : World σ) : service.create referee w room code player =
          w.put room (referee.createRoom room language player).1
            (referee.createRoom room language player).2
            (service.store.insert w.stored (referee.createRoom room language player).1) := by
        simp only [create, establish, hlanguage]
        cases service.store.insert w.stored (referee.createRoom room language player).1 <;> rfl
      have hbelongs := Duel.BelongsTo.createRoom referee room language player
      simp only [hcreate]
      exact ⟨fun w w' hsame => World.put_here hsame (h.insert hbelongs hsame) _ _,
        fun w => World.put_rest (fun s hinsert => h.insert_rest hbelongs hinsert) _ _⟩

theorem get_confined (h : service.store.Separates own rest) (room : RoomId) (player : PlayerId) :
    Confined own rest room fun w => (w, service.get w room player) := by
  refine .look (f := fun s => service.get ⟨s, .bus []⟩ room player) fun s s' hsame => ?_
  simp only [get, h.load hsame]

/-- What comes of an attempt on what is stored of the room. -/
theorem run_eq (h : service.store.Separates own rest) (w : World σ) (room : RoomId) (ply : Ply) :
    (service.mutation room (ply.change.move ply.referee)).run w =
      match service.store.load w.stored room with
      | .error failure => (w, .error failure)
      | .ok none => (w, .error (.refused (.roomNotFound room)))
      | .ok (some duel) =>
        match ply.play? duel with
        | .error failure => (w, .error failure)
        | .ok (duel', events) => w.put room duel' events
            (service.store.commit w.stored ⟨room, service.exclusive, some (some duel)⟩ duel') := by
  have hopen := h.openUnit w.stored room service.exclusive
  have hloadIn := h.loadIn w.stored room service.exclusive
  cases hload : service.store.load w.stored room with
  | error failure =>
      rw [hload] at hloadIn
      simp only [Mutation.run, Mutation.load, mutation, hopen, hloadIn, Except.map]
  | ok duel? =>
      rw [hload] at hloadIn
      rw [run_of_load hopen hloadIn]
      cases duel? with
      | none => rfl
      | some duel =>
          cases hplay : ply.play? duel with
          | error failure => simp only [attemptOn, hplay]
          | ok played =>
              simp only [attemptOn, hplay]
              cases service.store.commit w.stored
                ⟨room, service.exclusive, some (some duel)⟩ played.1 <;> rfl

theorem run_confined (h : service.store.Separates own rest) (room : RoomId) (ply : Ply) :
    Confined own rest room fun w =>
      (service.mutation room (ply.change.move ply.referee)).run w := by
  simp only [run_eq h]
  constructor
  · intro w w' hsame
    -- What is loaded is the same, and so is what comes of the attempt on it.
    rw [← h.load hsame]
    split
    · exact ⟨rfl, hsame, [], rfl, rfl⟩
    · exact ⟨rfl, hsame, [], rfl, rfl⟩
    · next duel hload =>
      split
      · exact ⟨rfl, hsame, [], rfl, rfl⟩
      · next duel' events hplay =>
        exact World.put_here hsame (h.commit hload
          (fun hbelongs => hbelongs.effect (Ply.effect_of_play? hplay)) hsame) _ _
  · intro w
    split
    · rfl
    · rfl
    · next duel hload =>
      split
      · rfl
      · next duel' events hplay =>
        exact World.put_rest (fun s hcommit => h.commit_rest hload
          (fun hbelongs => hbelongs.effect (Ply.effect_of_play? hplay)) hcommit) _ _

theorem change_confined (h : service.store.Separates own rest) (grant : Grant) (room : RoomId)
    (ply : Ply) :
    Confined own rest room fun w =>
      service.change w grant room (ply.change.move ply.referee) := by
  cases grant with
  | granted => exact run_confined h room ply
  | late => exact .skip _
  | failed cause => exact .skip _

/-- A call is about one room only. -/
theorem answer_confined (h : service.store.Separates own rest) (ask : Ask) :
    Confined own rest ask.room fun w => service.answer w ask := by
  cases ask with
  | request referee grant request =>
      cases request with
      | create room code player =>
          have hcreate := (create_confined h referee room code player).map
            fun result => Told.reply (result.map fun duel => .view (duel.viewFor player))
          simpa only [Ask.room, Request.room, answer_create] using hcreate
      | get room player =>
          have hget := (get_confined h room player).map
            fun result => Told.reply (result.map fun duel => .view (duel.viewFor player))
          simpa only [Ask.room, Request.room, answer_get] using hget
      | change room change =>
          have hchange := (change_confined h grant room ⟨referee, change⟩).map
            fun result => Told.reply (result.map change.reply)
          simpa only [Ask.room, Request.room, answer_change] using hchange
  | load room =>
      exact .look (f := fun s => Told.duel (service.store.load s room))
        fun s s' hsame => congrArg Told.duel (h.load hsame)
  | loadRound room number =>
      exact .look (f := fun s => Told.round (service.store.loadRound s room number))
        fun s s' hsame => congrArg Told.round (h.loadRound number hsame)

end Service

/-! ### Sessions -/

section Sessions

variable {σ π ρ α : Type} {own : RoomId → σ → π} {rest : RoomId → σ → ρ} {room other : RoomId}

/-- Two worlds have the same of a room, and the same has been announced about it. -/
structure World.Agree (own : RoomId → σ → π) (room : RoomId) (w w' : World σ) : Prop where
  stored : own room w.stored = own room w'.stored
  heard : w.sink.heard room = w'.sink.heard room

theorem Confined.agree_here {act : World σ → World σ × α} (h : Confined own rest room act)
    {w w' : World σ} (hagree : w.Agree own room w') :
    (act w).2 = (act w').2 ∧ (act w).1.Agree own room (act w').1 := by
  obtain ⟨htold, hstored, events, hsink, hsink'⟩ := h.here w w' hagree.stored
  refine ⟨htold, hstored, ?_⟩
  rw [hsink, hsink', Sink.heard_publishAll_self, Sink.heard_publishAll_self, hagree.heard]

theorem Confined.agree_other {service : Service σ} (hstore : service.store.Separates own rest)
    {act : World σ → World σ × α} (h : Confined own rest room act) (hother : other ≠ room)
    (w : World σ) : (act w).1.Agree own other w := by
  obtain ⟨-, -, events, hsink, -⟩ := h.here w w rfl
  refine ⟨hstore.others hother (h.rest w), ?_⟩
  rw [hsink, Sink.heard_publishAll_other hother]

namespace Service

variable {service : Service σ}

/-- The answers to the calls about a room, each with what has been announced about the room by
then. -/
def seen (service : Service σ) (w : World σ) (room : RoomId) (asks : List Ask) :
    List (Told × List (String × List Envelope)) :=
  ((asks.zip (service.session w asks)).filter fun call => call.1.room = room).map
    fun call => (call.2.1, call.2.2.heard room)

theorem seen_cons_of_eq {w : World σ} {ask : Ask} (hroom : ask.room = room) (asks : List Ask) :
    service.seen w room (ask :: asks) =
      ((service.answer w ask).2, (service.answer w ask).1.sink.heard room) ::
        service.seen (service.answer w ask).1 room asks := by
  rw [seen, session_cons, List.zip_cons_cons, List.filter_cons_of_pos (by simpa using hroom)]
  rfl

theorem seen_cons_of_ne {w : World σ} {ask : Ask} (hroom : ask.room ≠ room) (asks : List Ask) :
    service.seen w room (ask :: asks) = service.seen (service.answer w ask).1 room asks := by
  rw [seen, session_cons, List.zip_cons_cons, List.filter_cons_of_neg (by simpa using hroom)]
  rfl

/-- Calls about other rooms make no difference to a room, and calls about a room none to the
rest. -/
structure KeepsApart (service : Service σ) (own : RoomId → σ → π) (rest : RoomId → σ → ρ) :
    Prop where
  /-- The calls about a room are answered, and announced, as if they were the only ones. -/
  seen : ∀ w room asks, service.seen w room asks =
    (service.session w (asks.filter fun ask => ask.room = room)).map
      fun told => (told.1, told.2.heard room)
  /-- What is stored of a room in the end is what its calls have made of it. -/
  stored : ∀ w room asks, own room (service.worldAfter w asks).stored =
    own room (service.worldAfter w (asks.filter fun ask => ask.room = room)).stored
  /-- What is announced about a room is what its calls have brought about. -/
  heard : ∀ w room asks, (service.worldAfter w asks).sink.heard room =
    (service.worldAfter w (asks.filter fun ask => ask.room = room)).sink.heard room
  /-- A call leaves alone all that does not belong to its room. -/
  rest : ∀ w ask, rest ask.room (service.answer w ask).1.stored = rest ask.room w.stored

theorem run_apart (h : service.store.Separates own rest) {w w' : World σ}
    (hagree : w.Agree own room w') (asks : List Ask) :
    service.seen w room asks =
        (service.session w' (asks.filter fun ask => ask.room = room)).map
          (fun told => (told.1, told.2.heard room)) ∧
      (service.worldAfter w asks).Agree own room
        (service.worldAfter w' (asks.filter fun ask => ask.room = room)) := by
  induction asks generalizing w w' with
  | nil => exact ⟨rfl, hagree⟩
  | cons ask asks ih =>
      have hconfined := answer_confined h ask
      rw [worldAfter_cons]
      by_cases hroom : ask.room = room
      · subst hroom
        obtain ⟨htold, hnext⟩ := hconfined.agree_here hagree
        obtain ⟨hseen, hafter⟩ := ih hnext
        rw [seen_cons_of_eq rfl, List.filter_cons_of_pos (by simp), session_cons, List.map_cons,
          worldAfter_cons, hseen, htold, hnext.heard]
        exact ⟨rfl, hafter⟩
      · have hstill := hconfined.agree_other h (Ne.symm hroom) w
        rw [seen_cons_of_ne hroom, List.filter_cons_of_neg (by simpa using hroom)]
        exact ih ⟨hstill.stored.trans hagree.stored, hstill.heard.trans hagree.heard⟩

theorem keepsApart (h : service.store.Separates own rest) : service.KeepsApart own rest where
  seen _ _ asks := (run_apart h ⟨rfl, rfl⟩ asks).1
  stored _ _ asks := (run_apart h ⟨rfl, rfl⟩ asks).2.stored
  heard _ _ asks := (run_apart h ⟨rfl, rfl⟩ asks).2.heard
  rest w ask := (answer_confined h ask).rest w

end Service

end Sessions

/-- Rooms are independent, in memory and in tables, and each has a lock of its own: whatever the
store holds at first, calls about a room are answered, stored and announced as if they were the
only ones, and leave all duels, or all rows, of other rooms as they are. -/
theorem rooms_apart (exclusive : Bool) :
    (Service.inMemory exclusive).KeepsApart (fun room rooms => rooms.get? room)
        (fun room rooms => rooms.erase room) ∧
      (Service.inTables exclusive).KeepsApart (fun room t => t.only (· = .value room))
        (fun room t => t.only (· ≠ .value room)) ∧
      ∀ room other, roomLockKey room = roomLockKey other → room = other :=
  ⟨Service.keepsApart Store.Memory.separates, Service.keepsApart Tables.separates,
    fun _ _ => roomLockKey_inj⟩

end WordDuel
