import WordDuel.Proofs.Reading
import WordDuel.Proofs.Statements
import WordDuel.Proofs.Structure
import WordDuel.Storage.Deposit
/-!
# WordDuel.Proofs.Rewriting

**Writing what differs is writing everything.** A unit of work compares the duel that it
stores with the one that it finds in the tables, and four tests of its own decide which tables
are touched. What it finds need not be what was stored there first: points of strangers and
the order of the rounds are lost on the way (`Duel.restored`), and that of too many players or
guesses as well (`Duel.asRead`). All the same the tables hold afterwards what they would hold if
the new duel had been written by itself (`rewrite_eq_insert`).
-/

namespace WordDuel

namespace Tables

/-! ### The rows of a room -/

/-- The rows of a room, in all tables. -/
def ofRoom (t : Tables) (room : RoomId) : Tables where
  rooms := t.rooms.filter fun r => r.id = .value room
  roster := t.roster.filter fun r => r.room = .value room
  rounds := t.rounds.filter fun r => r.room = .value room
  standings := t.standings.filter fun r => r.room = .value room
  guesses := t.guesses.filter fun r => r.room = .value room

/-- Two contents of the tables have the same rows, in whatever order. -/
structure Same (t t' : Tables) : Prop where
  rooms : t.rooms.Perm t'.rooms
  roster : t.roster.Perm t'.roster
  rounds : t.rounds.Perm t'.rounds
  standings : t.standings.Perm t'.standings
  guesses : t.guesses.Perm t'.guesses

variable {t t' stored : Tables} {room : RoomId} {duel? : Option Duel}

/-- What the tables hold of a room says which rows it has. -/
theorem Holds.same (h : t.Holds room duel?) (h' : t'.Holds room duel?) :
    (t.ofRoom room).Same (t'.ofRoom room) where
  rooms := .of_eq (h.rooms.trans h'.rooms.symm)
  roster := h.roster.trans h'.roster.symm
  rounds := perm_of_region roundKey fun number =>
    .of_eq ((h.rounds number).rounds.trans (h'.rounds number).rounds.symm)
  standings := perm_of_region StandingRow.place fun number =>
    (h.rounds number).standings.trans (h'.rounds number).standings.symm
  guesses := perm_of_region GuessRow.place fun number =>
    (h.rounds number).guesses.trans (h'.rounds number).guesses.symm

/-- Rows that are the same somewhere are the same wherever one looks more closely. -/
theorem perm_filter_of_perm {α : Type} {p q : α → Bool} {rows rows' : List α}
    (h : (rows.filter p).Perm rows') (hqp : ∀ r, q r → p r) :
    (rows.filter q).Perm (rows'.filter q) :=
  filter_filter_of_imp hqp rows ▸ h.filter q

/-- A list with no more than one row is the only arrangement of it. -/
theorem eq_of_perm_elim {α β : Type} {rows : List α} {o : Option β} {row : β → α}
    (h : rows.Perm (o.elim [] fun b => [row b])) : rows = o.elim [] fun b => [row b] := by
  cases o with
  | none => exact List.perm_nil.1 h
  | some b => exact List.perm_singleton.1 h

/-- The tables hold what others hold whose rows for the room are the same. -/
theorem Same.holds (h : (t.ofRoom room).Same stored) (hstored : stored.Holds room duel?) :
    t.Holds room duel? where
  rooms := eq_of_perm_elim
    ((perm_filter_of_perm h.rooms fun _ hr => hr).trans (.of_eq hstored.rooms))
  roster := (perm_filter_of_perm h.roster fun _ hr => hr).trans hstored.roster
  rounds number :=
    have hinside {α : Type} (place : α → Held RoomId × Held Int) (r : α)
        (hr : decide (place r = (.value room, number)) = true) :
        decide ((place r).1 = .value room) = true := by
      rw [of_decide_eq_true hr]
      exact decide_eq_true rfl
    { rounds := eq_of_perm_elim ((perm_filter_of_perm h.rounds (hinside roundKey)).trans
        (.of_eq (hstored.rounds number).rounds))
      standings := (perm_filter_of_perm h.standings (hinside StandingRow.place)).trans
        (hstored.rounds number).standings
      guesses := (perm_filter_of_perm h.guesses (hinside GuessRow.place)).trans
        (hstored.rounds number).guesses }

/-- Of another room the rows are the same after a write. -/
theorem SameElsewhere.ofRoom (h : SameElsewhere room t t') {other : RoomId}
    (hother : other ≠ room) : t'.ofRoom other = t.ofRoom other := by
  have hmono := h.rounds.mono (Q := fun place => place.1 = .value other) fun place hplace => by
    have hplace := of_decide_eq_true hplace
    simp [hplace, hother]
  have hrooms := filter_mono (q := fun r => r.id = .value other) h.rooms fun r hr => by
    have hr := of_decide_eq_true hr
    simp [hr, hother]
  have hroster := filter_mono (q := fun r => r.room = .value other) h.roster fun r hr => by
    have hr := of_decide_eq_true hr
    simp [hr, hother]
  rw [Tables.ofRoom, Tables.ofRoom, hrooms, hroster]
  exact congr (congr (congrArg _ hmono.rounds) hmono.standings) hmono.guesses

theorem filter_eq_self_of_none {α : Type} {p : α → Prop} [DecidablePred p] {rows : List α}
    (h : rows.filter (fun r => ¬p r) = []) : rows.filter (fun r => p r) = rows :=
  List.filter_eq_self.2 fun r hr => by simpa using List.filter_eq_nil_iff.1 h r hr

/-- What is written into empty tables is all that is there. -/
theorem SameElsewhere.ofRoom_eq (h : SameElsewhere room empty t) : t.ofRoom room = t := by
  rw [Tables.ofRoom, filter_eq_self_of_none h.rooms, filter_eq_self_of_none h.roster]
  exact congr (congr (congrArg _ (filter_eq_self_of_none h.rounds.rounds))
    (filter_eq_self_of_none h.rounds.standings)) (filter_eq_self_of_none h.rounds.guesses)

/-! ### What can be written into empty tables -/

section Inserted

variable {duel : Duel}

/-- The rows of rounds are added one after the other where nothing has been loaded. -/
theorem rounds_of_writeRounds {rounds : List Round}
    (h : rounds.foldlM (writeRound room none) t = some t') :
    t'.rooms = t.rooms ∧ t'.roster = t.roster ∧ t'.rounds = t.rounds ++ rounds.map Round.row := by
  induction rounds generalizing t with
  | nil =>
      obtain rfl := Option.some.inj h
      simp
  | cons round rounds ih =>
      obtain ⟨t₁, hround, hrest⟩ := Option.bind_eq_some_iff.1 h
      obtain ⟨hrooms, hroster, hrounds⟩ := ih hrest
      simp only [writeRound, Option.bind_none, reduceCtorEq, if_false] at hround
      obtain ⟨t₂, hrow, hround⟩ := Option.bind_eq_some_iff.1 hround
      obtain ⟨t₃, hstandings, hguesses⟩ := Option.bind_eq_some_iff.1 hround
      obtain ⟨-, -, rfl⟩ := insertRound_eq_some hrow
      rw [writeStandings, Option.all_none, if_pos rfl] at hstandings
      obtain ⟨-, standings, -, rfl⟩ := replaceStandings_eq_some hstandings
      obtain ⟨-, guesses, -, rfl⟩ := insertGuesses_eq_some hguesses
      refine ⟨hrooms, hroster, hrounds.trans ?_⟩
      simp [Round.row]

/-- What is there after a duel has been written into empty tables. -/
theorem rows_of_write? (h : empty.write? none duel = some t) :
    t.rooms = [duel.row] ∧ t.roster = duel.rosterRows ∧ t.rounds = duel.rounds.map Round.row := by
  rw [write?] at h
  obtain ⟨t₁, hroom, h⟩ := Option.bind_eq_some_iff.1 h
  obtain ⟨t₂, hroster, hrounds⟩ := Option.bind_eq_some_iff.1 h
  obtain ⟨-, rfl⟩ := insertRoom_eq_some hroom
  rw [writeRoster, Option.all_none, if_pos rfl] at hroster
  obtain ⟨-, roster, hadd, rfl⟩ := replaceRoster_eq_some hroster
  obtain ⟨rfl, -⟩ := addRows_eq_some hadd
  obtain ⟨hrooms, hroster, hrounds⟩ := rounds_of_writeRounds hrounds
  exact ⟨hrooms, hroster, hrounds⟩

/-- The players and the rounds of what can be written into empty tables can be told apart, and
the rounds are its own. -/
theorem keys_of_write? (h : empty.write? none duel = some t) :
    duel.room.players.Nodup ∧ (∀ round ∈ duel.rounds, round.room = duel.id) ∧
      duel.rounds.Pairwise fun a b => a.number ≠ b.number := by
  obtain ⟨hrooms, hroster, hrounds⟩ := rows_of_write? h
  have hsound := sound_empty.write? h
  have howned : ∀ round ∈ duel.rounds, round.room = duel.id := by
    intro round hround
    have hroom := hsound.rounds_room round.row (hrounds ▸ List.mem_map_of_mem hround)
    rw [hasRoom_iff, hrooms, List.map_singleton, List.mem_singleton] at hroom
    exact Held.value.inj hroom
  refine ⟨nodup_rosterKey_iff.1 (hroster ▸ hsound.roster_nodup), howned, ?_⟩
  have hkeys := hsound.rounds_nodup
  rw [hrounds, List.map_map, List.nodup_iff_pairwise_ne, List.pairwise_map] at hkeys
  refine hkeys.imp_of_mem fun {a b} ha hb hne heq => hne ?_
  simp [roundKey, Round.row, RoundRow.ofRecord, RoundRecord.ofRound, howned a ha, howned b hb, heq]

end Inserted

end Tables

/-! ### What comes back of a duel -/

/-- A duel as it comes back from the tables into which it has been written: points are kept for
its players only, and the rounds are in the order of their numbers. -/
def Duel.restored (duel : Duel) : Duel where
  room :=
    { duel.room with
      scores := .ofList (duel.room.players.map fun player => (player, duel.room.pointsOf player))
      currentRound := duel.room.currentRound.map fun number => ofColumn (toColumn number) }
  rounds := duel.rounds.mergeSort fun a b => a.number ≤ b.number

/-- A round that can be stored could be stored before guesses were added. -/
theorem Round.Storable.of_continues {round earlier : Round} {room : RoomId}
    (h : round.Storable room) (hcontinues : round.Continues earlier) : earlier.Storable room where
  owned := hcontinues.room ▸ h.owned
  number := hcontinues.number ▸ h.number
  limit := hcontinues.maxAttempts ▸ h.limit
  attempts guess hguess := h.attempts guess (hcontinues.guesses.subset hguess)
  distinct := (hcontinues.guesses.sublist.map _).nodup h.distinct

namespace Duel

variable {duel : Duel}

theorem get?_scores_restored (duel : Duel) (player : PlayerId) :
    duel.restored.room.scores.get? player =
      if player ∈ duel.room.players then some (duel.room.pointsOf player) else none := by
  let points (player : PlayerId) : Option Int := some (duel.room.pointsOf player)
  have hpoints : ∀ e ∈ duel.room.players.map fun player => (player, duel.room.pointsOf player),
      points e.1 = some e.2 := by simp [points]
  simpa [Function.comp_def, restored] using SortedMap.get?_ofList hpoints player

theorem row_restored (duel : Duel) : duel.restored.row = duel.row := by
  have hnumber : (duel.restored.room.currentRound).map toColumn =
      duel.room.currentRound.map toColumn := by
    simp [restored, Function.comp_def, toColumn_ofColumn_toColumn]
  rw [row, row, RoomRecord.ofRoom, RoomRecord.ofRoom, hnumber]
  rfl

theorem rosterRows_restored (duel : Duel) : duel.restored.rosterRows = duel.rosterRows := by
  refine congrArg (List.map _) (List.map_congr_left fun entry hentry => ?_)
  have hplayer : entry.1 ∈ duel.room.players := List.fst_mem_of_mem_zipIdx hentry
  have hpoints : duel.restored.room.pointsOf entry.1 = duel.room.pointsOf entry.1 := by
    rw [Room.pointsOf, get?_scores_restored, if_pos hplayer]
    rfl
  exact congrArg (RosterRecord.mk _ _ _) hpoints

theorem perm_rounds_restored (duel : Duel) : duel.restored.rounds.Perm duel.rounds :=
  List.mergeSort_perm _ _

/-- What comes back of a duel comes back unchanged from then on. -/
theorem Writable.restored (h : duel.Writable) : duel.restored.Storable where
  nodup := h.nodup
  scored player := by
    rw [SortedMap.contains, get?_scores_restored]
    show _ ↔ player ∈ duel.room.players
    split <;> simp [*]
  current number hnumber := by
    obtain ⟨n, -, rfl⟩ := Option.map_eq_some_iff.1 hnumber
    exact ofColumn_lt _
  ordered := by
    have hsorted : duel.restored.rounds.Pairwise fun a b => decide (a.number ≤ b.number) := by
      refine List.pairwise_mergeSort (fun a b c hab hbc => ?_) (fun a b => ?_) duel.rounds
      · exact decide_eq_true (Nat.le_trans (of_decide_eq_true hab) (of_decide_eq_true hbc))
      · simpa using Nat.le_total a.number b.number
    have hdistinct := ((perm_rounds_restored duel).pairwise_iff fun hne => hne.symm).2 h.distinct
    exact (hsorted.and hdistinct).imp fun h => Nat.lt_of_le_of_ne (of_decide_eq_true h.1) h.2
  rounds round hround := h.rounds round ((perm_rounds_restored duel).mem_iff.1 hround)

/-- The rounds of a duel are where they are, in whatever order. -/
theorem Writable.roundAt?_restored (h : duel.Writable) (place : Held RoomId × Held Int) :
    duel.restored.roundAt? place = duel.roundAt? place := by
  have hperm := perm_rounds_restored duel
  cases hfound : duel.roundAt? place with
  | none =>
      rw [Tables.roundAt?_eq_none_iff] at hfound ⊢
      exact fun hmem => hfound ((hperm.map _).mem_iff.1 hmem)
  | some round =>
      obtain ⟨hmem, rfl⟩ := Tables.roundAt?_eq_some hfound
      exact Tables.find?_home ((hperm.map _).nodup_iff.2 (Tables.nodup_place h.fitting))
        (hperm.mem_iff.2 hmem)

/-- Tables that hold a duel hold what comes back of it. -/
theorem Writable.holds_restored (h : duel.Writable) {t : Tables} (hholds : t.Holds duel.id (some duel)) :
    t.Holds duel.id (some duel.restored) where
  rooms := hholds.rooms.trans (congrArg (fun row => [row]) (row_restored duel).symm)
  roster := hholds.roster.trans (.of_eq (rosterRows_restored duel).symm)
  rounds number := by
    show t.HoldsRound _ (duel.restored.roundAt? _)
    rw [h.roundAt?_restored]
    exact hholds.rounds number

end Duel

/-! ### Writing within a unit of work -/

namespace Tables

variable {t : Tables} {room : RoomId} {duel : Duel} {before? : Option Duel}

/-- A unit of work on a room has loaded what the tables give, if it has loaded. -/
structure UpToDate (room : RoomId) (before? : Option Duel) (u : UnitOfWork) : Prop where
  room : u.room = room
  loaded : ∀ before ∈ u.loaded, before = before?

theorem UpToDate.commit {u : UnitOfWork} (h : UpToDate room before? u)
    (hload : t.load room = .ok before?) : t.commit u duel = t.write before? duel := by
  obtain ⟨hroom, hloaded⟩ := h
  rw [Tables.commit]
  cases hu : u.loaded with
  | none =>
      dsimp only
      rw [hroom, hload]
  | some before =>
      obtain rfl := hloaded before hu
      rfl

theorem UpToDate.loadsIn {u : UnitOfWork} (h : UpToDate room before? u)
    (hload : t.load room = .ok before?) (loads : Nat) :
    ∃ u', Store.tables.loadsIn t u loads = .ok u' ∧ UpToDate room before? u' := by
  induction loads generalizing u with
  | zero => exact ⟨u, rfl, h⟩
  | succ n ih =>
      have hloadIn : Store.tables.loadIn t u = .ok (before?, { u with loaded := some before? }) := by
        simp only [Store.tables, h.room, hload]
      rw [Store.loadsIn, hloadIn]
      exact ih ⟨h.room, fun before hbefore => (Option.some.inj hbefore).symm⟩

/-- However often a unit of work loads before it stores a duel, or if it does not, the duel is
written over what the tables give for the room. -/
theorem rewrite_eq_write (hload : t.load room = .ok before?) (exclusive : Bool) (loads : Nat) :
    Store.tables.rewrite t room exclusive loads duel = t.write before? duel := by
  have hfresh : UpToDate room before? (Store.freshUnit room exclusive) :=
    ⟨rfl, fun _ hbefore => by cases hbefore⟩
  obtain ⟨u, hu, huptodate⟩ := hfresh.loadsIn hload loads
  have hopen : Store.tables.openUnit t room exclusive = .ok (Store.freshUnit room exclusive) := rfl
  rw [Store.rewrite, hopen]
  show (Store.tables.loadsIn t _ loads).bind _ = _
  rw [hu]
  exact huptodate.commit hload

/-! ### Writing what differs -/

theorem write_eq_ok_iff {t' : Tables} :
    t.write before? duel = .ok t' ↔ t.write? before? duel = some t' := by
  rw [write]
  cases t.write? before? duel <;> simp

/-- What can be written into empty tables leaves its rows there, and no others. -/
theorem write?_empty_of_fitting (h : duel.Fitting) :
    ∃ t, empty.write? none duel = some t ∧ t.Holds duel.id (some duel) ∧ t.ofRoom duel.id = t := by
  obtain ⟨t, hwrite, hholds, hsame⟩ :=
    write?_of_fitting h (holds_empty duel.id) (fun _ hbefore => by cases hbefore)
      fun _ hbefore => by cases hbefore
  exact ⟨t, hwrite, hholds, hsame.ofRoom_eq⟩

theorem write?_empty (h : duel.Writable) :
    ∃ t, empty.write? none duel = some t ∧ t.Holds duel.id (some duel) ∧ t.ofRoom duel.id = t :=
  write?_empty_of_fitting h.fitting

/-- Let a duel that can be written into empty tables be given, and another one of the same room
that the tables can hold and that has all its rounds, with the same words, limits and starting
times and with the guesses that there were and maybe more. Where the rows of the room are those
that the first duel leaves in empty tables, whatever else there is, a unit of work can store the
second one, whether it loads before, and however often. No key breaks, the rows of the room are
then those that the second duel leaves in empty tables, and the rows of other rooms are what they
were. The second duel is read as it is, as long as its guesses are not too many for their columns.
Its players must not be too many at all, as a roster that is read in another order may be the
new one by chance and then is not written. -/
theorem rewrite_eq_insert {s s' : Duel} {stored : Tables} (hid : s'.id = s.id)
    (hstorable : s'.Storable) (hroster : s'.room.players.length ≤ 2147483648)
    (hkept : ∀ round ∈ s.rounds, ∃ round' ∈ s'.rounds, round'.number = round.number ∧
      round'.target = round.target ∧ round'.maxAttempts = round.maxAttempts ∧
      round'.startedAt = round.startedAt ∧ round.guesses <+: round'.guesses)
    (hstored : Store.tables.insert .empty s = .ok stored) (hrows : (t.ofRoom s.id).Same stored)
    (exclusive : Bool) (loads : Nat) :
    ∃ full t', Store.tables.insert .empty s' = .ok full ∧
      Store.tables.rewrite t s.id exclusive loads s' = .ok t' ∧
      (t'.ofRoom s.id).Same full ∧
      ((∀ round ∈ s'.rounds, round.guesses.length ≤ 2147483648) →
        Store.tables.load t' s.id = .ok (some s')) ∧
      (∀ other, other ≠ s.id → t'.ofRoom other = t.ofRoom other) ∧ (t.Sound → t'.Sound) := by
  have hwritten : empty.write? none s = some stored := write_eq_ok_iff.1 hstored
  obtain ⟨hnodup, howned, hdistinct⟩ := keys_of_write? hwritten
  have hcontinued : ∀ round ∈ s.rounds, ∃ round' ∈ s'.rounds, round'.Continues round := by
    intro round hround
    obtain ⟨round', hround', hnumber, htarget, hlimit, hstarted, hguesses⟩ := hkept round hround
    have hroom : round'.room = round.room :=
      (hstorable.rounds round' hround').owned.trans (hid.trans (howned round hround).symm)
    exact ⟨round', hround', hroom, hnumber, htarget, hlimit, hstarted, hguesses⟩
  have hwritable : s.Writable := by
    refine ⟨hnodup, hdistinct, fun round hround => ?_⟩
    obtain ⟨round', hround', hcontinues⟩ := hcontinued round hround
    exact hid ▸ (hstorable.rounds round' hround').of_continues hcontinues
  -- What is found in the tables is what came back of the first duel.
  obtain ⟨_, hwrite, hholds, -⟩ := write?_empty hwritable
  obtain rfl := Option.some.inj (hwritten.symm.trans hwrite)
  have hheld : t.Holds s.id (some s.restored) := hwritable.holds_restored (hrows.holds hholds)
  have hload : t.load s.id = .ok (some s.restored.asRead) :=
    load_of_holds hheld fun duel hduel => Option.some.inj hduel ▸ ⟨hwritable.restored, rfl⟩
  have hcontinues : ∀ before ∈ some s.restored, s'.Continues before := by
    intro before hbefore
    obtain rfl := Option.some.inj hbefore
    exact ⟨hid, fun round hround =>
      hcontinued round ((Duel.perm_rounds_restored s).mem_iff.1 hround)⟩
  obtain ⟨t', hwrite', hholds', hsame⟩ :=
    write?_spec hstorable.writable (hid ▸ hheld) hcontinues fun _ _ => hroster
  obtain ⟨full, hfull, hfullHolds, hall⟩ := write?_empty hstorable.writable
  refine ⟨full, t', write_eq_ok_iff.2 hfull,
    (rewrite_eq_write hload exclusive loads).trans (write_eq_ok_iff.2 hwrite'), ?_, fun hfew => ?_,
    fun other hother => hsame.ofRoom (hid ▸ hother), fun hsound => hsound.write? hwrite'⟩
  · rw [← hid, ← hall]
    exact hholds'.same (hall.symm ▸ hfullHolds)
  · have hread : s'.asRead = s' := Duel.asRead_eq ⟨hroster, hfew⟩
    have hload' : t'.load s'.id = .ok (some s'.asRead) :=
      load_of_holds hholds' fun duel hduel => Option.some.inj hduel ▸ ⟨hstorable, rfl⟩
    rw [← hid]
    exact hload'.trans (by rw [hread])

end Tables

/-! ### From a first round to a second one -/

namespace Sample

/-- Both players are in, and somebody who is not has points. -/
def overrated : Duel :=
  { after [.join bob] with
    room := { (after [.join bob]).room with
      scores := (after [.join bob]).room.scores.insert ⟨3⟩ 1 } }

theorem storable_twoRounds : (after twoRounds).Storable := by
  have hwf := (reachable_after twoRounds).wellFormed
  have hrounds : ∀ round ∈ (after twoRounds).rounds, round.room = (after twoRounds).id ∧
      round.number < 2147483648 ∧ round.maxAttempts < 4294967296 ∧
      (∀ guess ∈ round.guesses, guess.attempt < 4294967296) ∧
      (round.guesses.map fun guess => (guess.player, guess.attempt)).Nodup := by
    decide +kernel
  refine ⟨hwf.nodup, hwf.scored, by decide +kernel, by decide +kernel, fun round hround => ?_⟩
  obtain ⟨howned, hnumber, hlimit, hattempts, hdistinct⟩ := hrounds round hround
  exact ⟨howned, hnumber, hlimit, hattempts, hdistinct⟩

end Sample

/-- Two rounds are stored where only the first one had been opened. -/
theorem Tables.rewrite_eq_insert_of_two_rounds :
    ∃ stored full t, Store.tables.insert .empty Sample.overrated = .ok stored ∧
      Store.tables.insert .empty (Sample.after Sample.twoRounds) = .ok full ∧
      Store.tables.rewrite stored ⟨7⟩ true 2 (Sample.after Sample.twoRounds) = .ok t ∧
      (t.ofRoom ⟨7⟩).Same full ∧
      Store.tables.load t ⟨7⟩ = .ok (some (Sample.after Sample.twoRounds)) := by
  have hid : (Sample.after Sample.twoRounds).id = Sample.overrated.id := by decide +kernel
  have hkept : ∀ round ∈ Sample.overrated.rounds,
      ∃ round' ∈ (Sample.after Sample.twoRounds).rounds, round'.number = round.number ∧
        round'.target = round.target ∧ round'.maxAttempts = round.maxAttempts ∧
        round'.startedAt = round.startedAt ∧ round.guesses <+: round'.guesses := by
    decide +kernel
  have hstored : (Store.tables.insert .empty Sample.overrated).toOption.any fun stored =>
      stored.ofRoom ⟨7⟩ = stored := by
    decide +kernel
  cases hinsert : Store.tables.insert .empty Sample.overrated with
  | error failure =>
      rw [hinsert] at hstored
      cases hstored
  | ok stored =>
      rw [hinsert] at hstored
      have hrows : stored.ofRoom ⟨7⟩ = stored := of_decide_eq_true hstored
      have hsame : (stored.ofRoom Sample.overrated.id).Same stored := by
        show (stored.ofRoom ⟨7⟩).Same stored
        rw [hrows]
        exact ⟨.refl _, .refl _, .refl _, .refl _, .refl _⟩
      obtain ⟨full, t, hfull, hrewrite, hsame, hload, -⟩ :=
        rewrite_eq_insert hid Sample.storable_twoRounds (by decide +kernel) hkept hinsert hsame
          true 2
      exact ⟨stored, full, t, rfl, hfull, hrewrite, hsame, hload (by decide +kernel)⟩

end WordDuel
