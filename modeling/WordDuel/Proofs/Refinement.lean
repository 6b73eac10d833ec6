import WordDuel.Proofs.Keeping
import WordDuel.Proofs.Reading
/-!
# WordDuel.Proofs.Refinement

**Tables do what memory does.** Whatever is asked of a service, it gives the same answers and
announces the same events whether it keeps its duels in tables or whole in memory. While a
session goes on the tables hold, room by room, the duels that are in memory (`Mirrors`); a
call leaves it so (`Mirrors.answer`), because every duel that a service keeps can be stored
and every change continues the duel that was loaded before.
-/

namespace WordDuel

/-! ### One call -/

/-- The tables hold the duels that are in memory, and the same events have been announced. -/
structure Mirrors (w : World Tables) (v : World Store.Memory) : Prop where
  sink : w.sink = v.sink
  holds : ∀ room, w.stored.Holds room (v.stored.get? room)
  kept : v.stored.Kept
  small : v.stored.Small

/-- A step on either side comes to the same. -/
def Alike {α : Type} (tables : World Tables × α) (memory : World Store.Memory × α) : Prop :=
  Mirrors tables.1 memory.1 ∧ tables.2 = memory.2

theorem mirrors_empty (sink : Sink) : Mirrors ⟨.empty, sink⟩ ⟨.empty, sink⟩ where
  sink := rfl
  holds _ := Tables.holds_empty _
  kept _ _ hduel := by cases hduel
  small _ _ hduel := by cases hduel

namespace Mirrors

variable {w : World Tables} {v : World Store.Memory}

theorem storable (h : Mirrors w v) (room : RoomId) :
    ∀ duel ∈ v.stored.get? room, duel.Storable ∧ duel.id = room := by
  intro duel hduel
  obtain ⟨hid, hkept⟩ := h.kept room duel hduel
  exact ⟨hkept.storable (h.small room duel hduel).1, hid⟩

/-- The tables give back what they hold, so that it does not matter that it has been read. -/
theorem map_asRead (h : Mirrors w v) (room : RoomId) :
    (v.stored.get? room).map Duel.asRead = v.stored.get? room := by
  cases hduel : v.stored.get? room with
  | none => rfl
  | some duel =>
      have hkept := (h.kept room duel hduel).2
      rw [Option.map_some, Duel.asRead_eq (hkept.numerable (h.small room duel hduel))]

theorem load (h : Mirrors w v) (room : RoomId) :
    w.stored.load room = .ok (v.stored.get? room) := by
  rw [Tables.load_of_holds (h.holds room) (h.storable room), h.map_asRead]

theorem loadRound (h : Mirrors w v) (room : RoomId) {number : Nat} (hnumber : number < 4294967296) :
    w.stored.loadRound room number =
      .ok ((v.stored.get? room).bind fun duel => duel.round? number) := by
  rw [Tables.loadRound_of_holds (h.holds room) (h.storable room) hnumber, ← round?_of_loaded,
    h.map_asRead]

/-- A duel that continues the one in memory can be written to both. -/
theorem write (h : Mirrors w v) {duel : Duel} (hkept : duel.Kept) (hsmall : duel.Small)
    (hcont : ∀ before ∈ v.stored.get? duel.id, duel.Continues before) :
    ∃ t, w.stored.write (v.stored.get? duel.id) duel = .ok t ∧
      ∀ sink, Mirrors ⟨t, sink⟩ ⟨v.stored.insert duel.id duel, sink⟩ := by
  obtain ⟨t, hwrite, hholds, hsame⟩ := Tables.write?_spec (hkept.storable hsmall.1).writable
    (h.holds duel.id) hcont fun _ _ => (hkept.numerable hsmall).players
  rw [h.map_asRead] at hwrite
  refine ⟨t, by rw [Tables.write, hwrite], fun sink => ⟨rfl, fun room => ?_,
    h.kept.insert rfl hkept, h.small.insert hsmall⟩⟩
  by_cases hroom : room = duel.id
  · rw [hroom, SortedMap.get?_insert_self]
    exact hholds
  · rw [SortedMap.get?_insert_of_ne _ _ hroom]
    exact hsame.holds hroom (h.holds room)

variable {exclusive : Bool}

theorem attemptOn (h : Mirrors w v) {room : RoomId} {ply : Ply} {u : UnitOfWork}
    {duel? : Option Duel} (hroom : u.room = room) (hduel? : v.stored.get? room = duel?)
    (hloaded : u.loaded = some duel?)
    (hrange : ply.referee.rules.maxAttempts < 4294967296)
    (hsmall : ((Service.inMemory exclusive).attemptOn v room ply u duel?).1.stored.Small) :
    Alike ((Service.inTables exclusive).attemptOn w room ply u duel?)
      ((Service.inMemory exclusive).attemptOn v room ply u duel?) := by
  subst hroom
  cases duel? with
  | none => exact ⟨h, rfl⟩
  | some duel =>
      obtain ⟨hid, hkept⟩ := h.kept u.room duel hduel?
      simp only [Service.attemptOn] at hsmall ⊢
      cases hplay : ply.play? duel with
      | error failure => exact ⟨h, rfl⟩
      | ok played =>
          obtain ⟨duel', events⟩ := played
          rw [hplay] at hsmall
          have hgrows := hkept.wellFormed.grows_effect (Ply.effect_of_play? hplay)
          have hid' : duel'.id = u.room := hgrows.id.trans hid
          have hcont : ∀ before ∈ v.stored.get? duel'.id, duel'.Continues before := by
            intro before hbefore
            rw [hid', hduel?] at hbefore
            obtain rfl := Option.some.inj hbefore
            exact hgrows.continues
          obtain ⟨t, hwrite, hmirrors⟩ := h.write (hkept.played hrange hplay)
            (hsmall u.room duel' (SortedMap.get?_insert_self _ _ _)) hcont
          rw [hid', hduel?] at hwrite
          have hstored : (Service.inTables exclusive).store.commit w.stored u duel' = .ok t := by
            show Tables.commit _ _ _ = _
            rw [Tables.commit, hloaded]
            exact hwrite
          have hworlds := hmirrors (v.sink.publishAll u.room events)
          rw [hid'] at hworlds
          simp only [hstored, h.sink]
          exact ⟨hworlds, rfl⟩

/-- A change does the same to both. -/
theorem run (h : Mirrors w v) {room : RoomId} (ply : Ply)
    (hrange : ply.referee.rules.maxAttempts < 4294967296)
    (hsmall : ((Service.inMemory exclusive).mutation room
      (ply.change.move ply.referee)).run v |>.1.stored.Small) :
    Alike (((Service.inTables exclusive).mutation room (ply.change.move ply.referee)).run w)
      (((Service.inMemory exclusive).mutation room (ply.change.move ply.referee)).run v) := by
  have hload : (Service.inTables exclusive).store.loadIn w.stored ⟨room, exclusive, none⟩ =
      .ok (v.stored.get? room, ⟨room, exclusive, some (v.stored.get? room)⟩) := by
    simp only [Service.inTables, Store.tables, h.load]
  rw [run_inMemory] at hsmall
  rw [run_inMemory, Service.run_of_load rfl hload]
  exact h.attemptOn rfl rfl rfl hrange hsmall

theorem create (h : Mirrors w v) (exclusive : Bool) (referee : Referee) {room : RoomId}
    (code : String) (player : PlayerId) (hnew : v.stored.get? room = none) :
    Alike ((Service.inTables exclusive).create referee w room code player)
      ((Service.inMemory exclusive).create referee v room code player) := by
  simp only [Service.create, Service.establish]
  cases Language.ofCode? code with
  | none => exact ⟨h, rfl⟩
  | some language =>
      have hkept := Duel.kept_createRoom referee room language player
      have hsmall : (referee.createRoom room language player).1.Small :=
        ⟨Nat.zero_lt_succ _, fun _ hround => by cases hround⟩
      obtain ⟨t, hwrite, hmirrors⟩ := h.write hkept hsmall fun before hbefore => by
        rw [show (referee.createRoom room language player).1.id = room from rfl, hnew] at hbefore
        cases hbefore
      rw [show (referee.createRoom room language player).1.id = room from rfl, hnew] at hwrite
      have hstored : (Service.inTables exclusive).store.insert w.stored
          (referee.createRoom room language player).1 = .ok t := hwrite
      simp only [hstored, h.sink]
      exact ⟨hmirrors _, rfl⟩

theorem get (h : Mirrors w v) (room : RoomId) (player : PlayerId) :
    (Service.inTables exclusive).get w room player =
      (Service.inMemory exclusive).get v room player := by
  have hload : (Service.inTables exclusive).store.load w.stored room = .ok (v.stored.get? room) :=
    h.load room
  simp only [Service.get, hload]
  rfl

theorem change (h : Mirrors w v) {referee : Referee} {grant : Grant} {room : RoomId}
    {change : Change} (hrange : referee.rules.maxAttempts < 4294967296)
    (hsmall : ((Service.inMemory exclusive).change v grant room
      (change.move referee)).1.stored.Small) :
    Alike ((Service.inTables exclusive).change w grant room (change.move referee))
      ((Service.inMemory exclusive).change v grant room (change.move referee)) := by
  cases grant with
  | granted => exact h.run ⟨referee, change⟩ hrange hsmall
  | late => exact ⟨h, rfl⟩
  | failed cause => exact ⟨h, rfl⟩

/-- A call leaves the tables with the duels that are in memory, and has the same answer. -/
theorem answer (h : Mirrors w v) {ask : Ask} (hrange : ask.InRange)
    (hnew : ∀ room ∈ ask.created?, v.stored.get? room = none)
    (hsmall : ((Service.inMemory exclusive).answer v ask).1.stored.Small) :
    Alike ((Service.inTables exclusive).answer w ask)
      ((Service.inMemory exclusive).answer v ask) := by
  cases ask with
  | request referee grant request =>
      cases request with
      | create room code player =>
          obtain ⟨hworlds, hresults⟩ := h.create exclusive referee code player (hnew room rfl)
          simp only [Alike, Service.answer_create, hresults, and_true]
          exact hworlds
      | get room player =>
          rw [Service.answer_get, Service.answer_get, h.get]
          exact ⟨h, rfl⟩
      | change room change =>
          rw [Service.answer_change] at hsmall
          obtain ⟨hworlds, hresults⟩ := h.change hrange hsmall
          simp only [Alike, Service.answer_change, hresults, and_true]
          exact hworlds
  | load room => exact ⟨h, congrArg _ (h.load room)⟩
  | loadRound room number =>
      exact ⟨h, congrArg _ (h.loadRound room hrange)⟩

end Mirrors

/-! ### One call after the other -/

/-- Calls that create rooms under ids of their own, and whose counts have 32 bits. -/
structure Orderly (rooms : Store.Memory) (asks : List Ask) : Prop where
  distinct : (asks.filterMap Ask.created?).Nodup
  new : ∀ room ∈ asks.filterMap Ask.created?, rooms.get? room = none
  inRange : ∀ ask ∈ asks, ask.InRange

namespace Orderly

variable {rooms : Store.Memory} {ask : Ask} {asks : List Ask}

theorem head (h : Orderly rooms (ask :: asks)) :
    ask.InRange ∧ ∀ room ∈ ask.created?, rooms.get? room = none := by
  refine ⟨h.inRange ask List.mem_cons_self, fun room hroom => h.new room ?_⟩
  exact List.mem_filterMap.2 ⟨ask, List.mem_cons_self, hroom⟩

theorem tail (h : Orderly rooms (ask :: asks)) {rooms' : Store.Memory}
    (hstores : Stores ask rooms rooms') : Orderly rooms' asks where
  distinct := by
    have hdistinct := h.distinct
    rw [List.filterMap_cons] at hdistinct
    split at hdistinct
    · exact hdistinct
    · exact (List.nodup_cons.1 hdistinct).2
  new room hroom := by
    have hmem : room ∈ (ask :: asks).filterMap Ask.created? := by
      obtain ⟨later, hlater, hcreated⟩ := List.mem_filterMap.1 hroom
      exact List.mem_filterMap.2 ⟨later, List.mem_cons_of_mem _ hlater, hcreated⟩
    refine hstores.get?_eq_none (h.new room hmem) fun hask => ?_
    have hdistinct := h.distinct
    rw [List.filterMap_cons_some hask] at hdistinct
    exact (List.nodup_cons.1 hdistinct).1 hroom
  inRange ask' hask' := h.inRange ask' (List.mem_cons_of_mem _ hask')

/-- In an orderly session no duel is lost. -/
theorem outlasts (exclusive : Bool) {v : World Store.Memory} (h : Orderly v.stored asks)
    (hkept : v.stored.Kept) :
    Outlasts v.stored ((Service.inMemory exclusive).worldAfter v asks).stored := by
  induction asks generalizing v with
  | nil => exact .refl _
  | cons ask asks ih =>
      have hstores := stores_answer exclusive v ask
      obtain ⟨hrange, hnew⟩ := h.head
      exact (hstores.outlasts hkept hnew).trans (ih (h.tail hstores) (hstores.kept hkept hrange))

end Orderly

namespace Mirrors

variable {exclusive : Bool} {w : World Tables} {v : World Store.Memory} {ask : Ask}
  {asks : List Ask}

/-- The first of some calls comes to the same, and the others are orderly after it. -/
theorem first (h : Mirrors w v) (horderly : Orderly v.stored (ask :: asks))
    (hsmall : ((Service.inMemory exclusive).worldAfter v (ask :: asks)).stored.Small) :
    Alike ((Service.inTables exclusive).answer w ask) ((Service.inMemory exclusive).answer v ask) ∧
      Orderly ((Service.inMemory exclusive).answer v ask).1.stored asks := by
  have hstores := stores_answer exclusive v ask
  obtain ⟨hrange, hnew⟩ := horderly.head
  have hrest := horderly.tail hstores
  have houtlasts := hrest.outlasts exclusive (hstores.kept h.kept hrange)
  exact ⟨h.answer hrange hnew (houtlasts.small hsmall), hrest⟩

theorem session (h : Mirrors w v) (horderly : Orderly v.stored asks)
    (hsmall : ((Service.inMemory exclusive).worldAfter v asks).stored.Small) :
    (Service.inTables exclusive).session w asks = (Service.inMemory exclusive).session v asks := by
  induction asks generalizing w v with
  | nil => rfl
  | cons ask asks ih =>
      obtain ⟨⟨hworlds, htold⟩, hrest⟩ := h.first horderly hsmall
      rw [Service.session_cons, Service.session_cons, htold, hworlds.sink, ih hworlds hrest hsmall]

/-- At any time the tables hold the duels that are in memory. -/
theorem after (h : Mirrors w v) {earlier later : List Ask}
    (horderly : Orderly v.stored (earlier ++ later))
    (hsmall : ((Service.inMemory exclusive).worldAfter v (earlier ++ later)).stored.Small) :
    Mirrors ((Service.inTables exclusive).worldAfter w earlier)
        ((Service.inMemory exclusive).worldAfter v earlier) ∧
      Orderly ((Service.inMemory exclusive).worldAfter v earlier).stored later := by
  induction earlier generalizing w v with
  | nil => exact ⟨h, horderly⟩
  | cons ask earlier ih =>
      obtain ⟨⟨hworlds, -⟩, hrest⟩ := h.first horderly hsmall
      exact ih hworlds hrest hsmall

/-- Whichever call is made next, it finds the tables with the duels that are in memory. -/
theorem next (h : Mirrors w v) {earlier later : List Ask}
    (horderly : Orderly v.stored (earlier ++ ask :: later))
    (hsmall : ((Service.inMemory exclusive).worldAfter v (earlier ++ ask :: later)).stored.Small) :
    Mirrors ((Service.inTables exclusive).worldAfter w earlier)
        ((Service.inMemory exclusive).worldAfter v earlier) ∧
      Alike ((Service.inTables exclusive).answer
          ((Service.inTables exclusive).worldAfter w earlier) ask)
        ((Service.inMemory exclusive).answer
          ((Service.inMemory exclusive).worldAfter v earlier) ask) := by
  obtain ⟨hbefore, hrest⟩ := h.after horderly hsmall
  rw [Service.worldAfter_append] at hsmall
  exact ⟨hbefore, (hbefore.first hrest hsmall).1⟩

end Mirrors

/-! ### The refinement -/

/-- A session of calls that create rooms under ids of their own, in whose course no room comes
to 2³¹ rounds and no round to more than 2³¹ guesses, has the same answers and announces the same
events, call by call, whether it starts from empty tables or from an empty memory. With tables a call fails for the storage only
if its dictionary says so, and a player who is shown a room by the answer to a request sees
the same on looking at it right after that. -/
theorem tables_refine_memory (exclusive : Bool) (sink : Sink) (asks : List Ask)
    (hdistinct : (asks.filterMap Ask.created?).Nodup) (hrange : ∀ ask ∈ asks, ask.InRange)
    (hsmall : ∀ room duel,
      ((Service.inMemory exclusive).worldAfter ⟨.empty, sink⟩ asks).stored.get? room = some duel →
        duel.Small) :
    (Service.inTables exclusive).session ⟨.empty, sink⟩ asks =
      (Service.inMemory exclusive).session ⟨.empty, sink⟩ asks ∧
    ∀ earlier ask later, asks = earlier ++ ask :: later →
      let before := (Service.inTables exclusive).worldAfter ⟨.empty, sink⟩ earlier
      let (after, told) := (Service.inTables exclusive).answer before ask
      (∀ cause, told.failure? = some (.storage cause) → ask.Reports (.storage cause)) ∧
      ∀ referee grant request player view, ask = .request referee grant request →
        request.player? = some player → told = .reply (.ok (.view view)) →
        ((Service.inTables exclusive).answer after
          (.request referee grant (.get request.room player))).2 = .reply (.ok (.view view)) := by
  have hempty := mirrors_empty sink
  have horderly : Orderly .empty asks := ⟨hdistinct, fun _ _ => rfl, hrange⟩
  refine ⟨hempty.session horderly hsmall, ?_⟩
  rintro earlier ask later rfl
  obtain ⟨hbefore, hafter, htold⟩ := hempty.next horderly hsmall
  dsimp only
  rw [htold]
  refine ⟨fun cause => reports_of_storage, ?_⟩
  rintro referee grant request player view rfl hplayer hview
  have hget := get_of_view hbefore.kept hplayer hview
  rw [Service.answer_get] at hget ⊢
  rw [hafter.get]
  exact hget

namespace Sample

/-- Alice creates a room, Bob comes in, and Alice finds the word; in between somebody looks
into the store. -/
def evening : List Ask :=
  [.request referee .granted (.create ⟨7⟩ "en" alice), .load ⟨7⟩,
    .request referee .granted (.change ⟨7⟩ (.join bob)),
    .request referee .granted (.change ⟨7⟩ (.guess alice "crane")), .loadRound ⟨7⟩ 1]

/-- How many guesses are in the round that a call is answered with. -/
def guessesTold : Told → Nat
  | .round (.ok (some round)) => round.guesses.length
  | _ => 0

theorem orderly_evening : Orderly .empty evening where
  distinct := by decide
  new _ _ := rfl
  inRange := by simp [evening, Ask.InRange, referee]

theorem small_evening :
    ((Service.inMemory true).worldAfter ⟨.empty, .recorder⟩ evening).stored.Small := by
  have hentries : ((Service.inMemory true).worldAfter ⟨.empty, .recorder⟩
      evening).stored.entries.all fun e => e.2.Small := by
    decide +kernel
  intro room duel hduel
  have hmem := (SortedMap.get?_eq_some_iff _).1 hduel
  simpa using List.all_eq_true.1 hentries _ hmem

end Sample

theorem tables_refine_memory_of_evening :
    (Sample.evening.filterMap Ask.created?).Nodup ∧ (∀ ask ∈ Sample.evening, ask.InRange) ∧
    (∀ room duel, ((Service.inMemory true).worldAfter ⟨.empty, .recorder⟩
      Sample.evening).stored.get? room = some duel → duel.Small) ∧
    (Service.inTables true).session ⟨.empty, .recorder⟩ Sample.evening =
      (Service.inMemory true).session ⟨.empty, .recorder⟩ Sample.evening ∧
    ((Service.inTables true).session ⟨.empty, .recorder⟩ Sample.evening).map
      (fun seen => Sample.guessesTold seen.1) = [0, 0, 0, 0, 1] := by
  have hdistinct := Sample.orderly_evening.distinct
  have hrange := Sample.orderly_evening.inRange
  have hsmall := Sample.small_evening
  obtain ⟨hsame, -⟩ :=
    tables_refine_memory true .recorder Sample.evening hdistinct hrange hsmall
  exact ⟨hdistinct, hrange, hsmall, hsame, by rw [hsame]; decide +kernel⟩

end WordDuel
