import WordDuel.Proofs.Codec
import WordDuel.Proofs.Writing
/-!
# WordDuel.Proofs.Reading

**What is read from tables that hold a duel.** Every part of a duel comes back from its
records (`RoomRecord.toRoom_ofRoom`, `RoundRecord.toRound_ofRound`), but for the order of its
players and guesses, which is that of the columns that hold their places (`Duel.asRead`). The
rows of a room may lie in the tables in any order, those of its rounds mixed with each other;
but there is one way only to put them in the order in which they are asked for, so that the
duel comes back from them as well (`Tables.load_of_holds`), and so does each of its rounds
(`Tables.loadRound_of_holds`).
-/

namespace WordDuel

theorem mapM_ok {α β ε : Type} {f : α → Except ε β} {g : α → β} {as : List α}
    (h : ∀ a ∈ as, f a = .ok (g a)) : as.mapM f = .ok (as.map g) := by
  induction as with
  | nil => rfl
  | cons a as ih =>
      rw [List.mapM_cons, h a List.mem_cons_self, ih fun a ha => h a (List.mem_cons_of_mem _ ha)]
      rfl

/-- Rows give back the records that they hold. -/
theorem mapM_read {α β ε : Type} {read : β → Except ε α} {ofRecord : α → β}
    {as : List α} (h : ∀ a ∈ as, read (ofRecord a) = .ok a) :
    (as.map ofRecord).mapM read = .ok as := by
  rw [List.mapM_map]
  exact (mapM_ok h).trans (congrArg _ (List.map_id as))

-- It only matters that numbers come back from their columns, and in which order.
attribute [local irreducible] toColumn ofColumn

/-! ### From records -/

theorem Language.ofCode?_code (l : Language) : ofCode? l.code = some l := by
  cases l <;> decide

theorem RoomRecord.toRoom_ofRoom {room : Room}
    (hscored : ∀ player, room.scores.contains player ↔ player ∈ room.players)
    (hcurrent : ∀ number ∈ room.currentRound, number < 4294967296) :
    (RoomRecord.ofRoom room).toRoom room.rosterRecords = .ok room.asRead := by
  have hplayers : room.rosterRecords.map RosterRecord.player = room.asRead.players :=
    List.map_map
  have hscores : SortedMap.ofList (room.rosterRecords.map fun r => (r.player, r.score)) =
      room.scores := by
    refine SortedMap.ofList_eq (fun e he => ?_) fun player hplayer => ?_
    · simp only [Room.rosterRecords, List.map_map, List.mem_map] at he
      obtain ⟨p, hp, rfl⟩ := he
      have hmem : p.1 ∈ room.players := room.perm_asRead.mem_iff.1 (List.mem_map_of_mem hp)
      obtain ⟨points, hpoints⟩ := Option.isSome_iff_exists.1 ((hscored p.1).2 hmem)
      simp [Room.rosterRecord, Room.pointsOf, hpoints]
    · rw [List.map_map]
      exact hplayers.symm ▸ room.perm_asRead.mem_iff.2 ((hscored player).1 hplayer)
  have hnumber : (room.currentRound.map toColumn).map ofColumn = room.currentRound := by
    cases hround : room.currentRound with
    | none => rfl
    | some number => exact congrArg some (ofColumn_toColumn (hcurrent number hround))
  rw [toRoom, hplayers, hscores]
  simp only [ofRoom, Language.ofCode?_code, RoomStatus.ofName_name, hnumber]
  rfl

theorem GuessRecord.toGuess_ofGuess {room : RoomId} {number sequence : Nat} {guess : Guess}
    (h : guess.attempt < 4294967296) :
    (ofGuess room number sequence guess).toGuess = .ok guess := by
  simp only [toGuess, ofGuess, decodeText?_encodeText_letters, ofColumn_toColumn h]

theorem RoundRecord.toRound_ofRound {room : RoomId} {round : Round} (h : round.Fitting room) :
    (RoundRecord.ofRound round).toRound (StandingRecord.ofRound round.room round)
      round.guessRecords = .ok round.asRead := by
  have hstandings : (StandingRecord.ofRound round.room round).mapM StandingRecord.toStanding =
      .ok round.standings.entries := by
    refine mapM_read fun e _ => ?_
    simp only [StandingRecord.toStanding, Standing.ofName_name]
    rfl
  have hguesses : round.guessRecords.mapM GuessRecord.toGuess = .ok round.asRead.guesses := by
    rw [Round.guessRecords, List.mapM_map]
    refine mapM_ok fun p hp => GuessRecord.toGuess_ofGuess (h.attempts p.1 ?_)
    exact round.perm_asRead.mem_iff.1 (List.mem_map_of_mem hp)
  have hordered : SortedMap.ofList round.standings.entries = round.standings :=
    SortedMap.ofList_eq (fun e he => round.standings.get?_eq_some_iff.2 he) fun player hplayer => by
      obtain ⟨standing, hstanding⟩ := Option.isSome_iff_exists.1 hplayer
      exact List.mem_map_of_mem (round.standings.get?_eq_some_iff.1 hstanding)
  rw [toRound, hstandings, hguesses]
  simp only [ofRound, ofColumn_toColumn h.limit, ofColumn_toColumn h.number,
    RoundStatus.ofName_name]
  show Except.ok _ = _
  rw [hordered]
  rfl

/-- The records of a duel, in the order in which they are read. -/
def Tables.RoomRecords.ofDuel (duel : Duel) : Tables.RoomRecords where
  room := .ofRoom duel.room
  roster := duel.room.rosterRecords
  rounds := duel.rounds.map .ofRound
  standings := duel.rounds.flatMap fun round => StandingRecord.ofRound round.room round
  guesses := duel.rounds.flatMap Round.guessRecords

/-- A duel whose rounds come back from the tables as they are: they are in the order of the
columns that hold their numbers, where large numbers come first. -/
structure Duel.Steady (duel : Duel) : Prop where
  nodup : duel.room.players.Nodup
  scored : ∀ player, duel.room.scores.contains player ↔ player ∈ duel.room.players
  current : ∀ number ∈ duel.room.currentRound, number < 4294967296
  ordered : duel.rounds.Pairwise fun a b => toColumn a.number < toColumn b.number
  rounds : ∀ round ∈ duel.rounds, round.Fitting duel.id

theorem Duel.Storable.steady {duel : Duel} (h : duel.Storable) : duel.Steady where
  nodup := h.nodup
  scored := h.scored
  current := h.current
  ordered := h.ordered.imp_of_mem fun _ hb hlt => toColumn_lt hlt (h.rounds _ hb).number
  rounds round hround := (h.rounds round hround).fitting

theorem Duel.Steady.fitting {duel : Duel} (h : duel.Steady) : duel.Fitting where
  nodup := h.nodup
  distinct := h.ordered.imp fun hlt heq => Int.ne_of_lt hlt (congrArg toColumn heq)
  rounds := h.rounds

namespace Tables

theorem RoomRecords.toDuel_ofDuel {duel : Duel} (h : duel.Steady) :
    (RoomRecords.ofDuel duel).toDuel = .ok duel.asRead := by
  have hnodup : (duel.rounds.map fun round => toColumn round.number).Nodup := by
    rw [List.nodup_iff_pairwise_ne, List.pairwise_map]
    exact h.ordered.imp Int.ne_of_lt
  -- The records that belong to one round are found among those of all by its number.
  have hround : ∀ round ∈ duel.rounds,
      (RoomRecords.ofDuel duel).toRound (.ofRound round) = .ok round.asRead := by
    intro round hround
    have hstandings : (ofDuel duel).standings.filter
        (fun r => r.round = toColumn round.number) = StandingRecord.ofRound round.room round := by
      refine (filter_flatMap_place hnodup (fun b _ r hr => ?_) _).trans ?_
      · obtain ⟨entry, -, rfl⟩ := List.mem_map.1 hr
        rfl
      · rw [find?_home hnodup hround]
        rfl
    have hguesses : (ofDuel duel).guesses.filter
        (fun r => r.round = toColumn round.number) = round.guessRecords := by
      refine (filter_flatMap_place hnodup (fun b _ r hr => ?_) _).trans ?_
      · obtain ⟨entry, -, rfl⟩ := List.mem_map.1 hr
        rfl
      · rw [find?_home hnodup hround]
        rfl
    refine Eq.trans ?_ (RoundRecord.toRound_ofRound (h.rounds round hround))
    exact congr (congrArg _ hstandings) hguesses
  have hrounds : (ofDuel duel).rounds.mapM (ofDuel duel).toRound = .ok duel.asRead.rounds :=
    List.mapM_map.trans (mapM_ok hround)
  have hroom : (ofDuel duel).room.toRoom (ofDuel duel).roster = .ok duel.asRead.room :=
    RoomRecord.toRoom_ofRoom h.scored h.current
  rw [toDuel, hroom, hrounds]
  rfl

/-! ### The rows of a room -/

section Room

variable {t : Tables} {duel : Duel}

theorem nodup_place (h : duel.Fitting) : (duel.rounds.map Round.place).Nodup := by
  rw [List.nodup_iff_pairwise_ne, List.pairwise_map]
  refine h.distinct.imp_of_mem fun {a b} ha hb hne heq => hne ?_
  exact (place_eq_iff (h.rounds a ha) (h.rounds b hb)).1 heq

/-- What the tables hold of the rounds of a room is all that comes of the rounds of its
duel, if it is so at every place. -/
theorem perm_of_places {α : Type} [DecidableEq α] (place : α → Held RoomId × Held Int)
    (h : duel.Fitting) {rows : List α} {rowsOf : Round → List α}
    (hplace : ∀ round ∈ duel.rounds, ∀ r ∈ rowsOf round, place r = round.place)
    (hheld : ∀ number, (rows.filter fun r => place r = (.value duel.id, number)).Perm
      ((duel.roundAt? (.value duel.id, number)).elim [] rowsOf)) :
    (rows.filter fun r => (place r).1 = .value duel.id).Perm (duel.rounds.flatMap rowsOf) := by
  have hall : (duel.rounds.flatMap rowsOf).filter (fun r => (place r).1 = .value duel.id) =
      duel.rounds.flatMap rowsOf := by
    refine List.filter_eq_self.2 fun r hr => decide_eq_true ?_
    obtain ⟨round, hround, hr⟩ := List.mem_flatMap.1 hr
    rw [hplace round hround r hr, Round.place, (h.rounds round hround).owned]
  rw [← hall]
  refine perm_of_region place fun number => ?_
  rw [filter_flatMap_place (nodup_place h) hplace]
  exact hheld number

/-! ### The rows of a duel are in order -/

theorem rosterRows_inOrder (duel : Duel) : duel.room.rosterRecords.map .ofRecord =
    duel.rosterRows.mergeSort fun a b => (rosterOrder a b).isLE := by
  rw [Room.rosterRecords, List.map_map, Duel.rosterRows, RosterRecord.ofRoom, List.map_map]
  exact map_inOrder

theorem guessRows_inOrder (round : Round) : round.guessRecords.map .ofRecord =
    round.guessRows.mergeSort fun a b => (guessOrder a b).isLE := by
  rw [Round.guessRecords, List.map_map, Round.guessRows, GuessRecord.ofRound, List.drop_zero,
    List.map_map]
  exact map_inOrder

theorem perm_rosterRecords (duel : Duel) :
    duel.rosterRows.Perm (duel.room.rosterRecords.map .ofRecord) := by
  rw [rosterRows_inOrder]
  exact (List.mergeSort_perm _ _).symm

theorem perm_guessRecords (round : Round) :
    round.guessRows.Perm (round.guessRecords.map .ofRecord) := by
  rw [guessRows_inOrder]
  exact (List.mergeSort_perm _ _).symm

theorem pairwise_rosterRows (hnodup : duel.room.players.Nodup) :
    (duel.room.rosterRecords.map RosterRow.ofRecord).Pairwise fun a b => rosterOrder a b = .lt := by
  rw [rosterRows_inOrder]
  refine pairwise_lt_mergeSort (nodup_rosterKey_iff.2 hnodup) fun a ha b hb heq => ?_
  have hroom := (place_of_mem_rosterRows ha).trans (place_of_mem_rosterRows hb).symm
  obtain ⟨record, -, rfl⟩ := List.mem_map.1 ha
  obtain ⟨record', -, rfl⟩ := List.mem_map.1 hb
  have hplayer := Held.idOrder_eq_eq.1 (compareLex_eq_eq.1 heq).2
  exact Prod.ext hroom (congrArg Held.value hplayer)

theorem pairwise_roundRows (h : duel.Steady) :
    (duel.rounds.map Round.row).Pairwise fun a b => roundOrder a b = .lt :=
  List.pairwise_map.2 (h.ordered.imp Held.numberOrder_eq_lt.2)

theorem pairwise_standingRows (round : Round) :
    round.standingRows.Pairwise fun a b => standingOrder a b = .lt := by
  rw [Round.standingRows, StandingRecord.ofRound, List.pairwise_map, List.pairwise_map]
  refine round.standings.sorted.imp fun hlt => compareLex_eq_lt.2 (.inr ⟨?_, ?_⟩)
  · exact Held.numberOrder_eq_eq.2 rfl
  · exact Held.idOrder_eq_lt.2 hlt

theorem pairwise_guessRows {room : RoomId} {round : Round} (h : round.Fitting room) :
    (round.guessRecords.map GuessRow.ofRecord).Pairwise fun a b => guessOrder a b = .lt := by
  rw [guessRows_inOrder]
  -- Guesses that are ranked alike would have the same key, wherever their places have gone.
  refine pairwise_lt_mergeSort (nodup_guessKey h) fun a ha b hb heq => ?_
  obtain ⟨hroom, hround⟩ :=
    Prod.mk.inj ((place_of_mem_guessRows ha).trans (place_of_mem_guessRows hb).symm)
  obtain ⟨record, -, rfl⟩ := List.mem_map.1 ha
  obtain ⟨record', -, rfl⟩ := List.mem_map.1 hb
  obtain ⟨-, heq⟩ := compareLex_eq_eq.1 heq
  obtain ⟨-, heq⟩ := compareLex_eq_eq.1 heq
  obtain ⟨hplayer, hattempt⟩ := compareLex_eq_eq.1 heq
  have hplayers := congrArg Held.value (Held.idOrder_eq_eq.1 hplayer)
  have hattempts := congrArg Held.value (Held.numberOrder_eq_eq.1 hattempt)
  exact Prod.ext hroom (Prod.ext hround (Prod.ext hplayers hattempts))

theorem place_of_mem_guessRecords {round : Round} {r : GuessRow}
    (h : r ∈ round.guessRecords.map GuessRow.ofRecord) : r.place = round.place :=
  place_of_mem_guessRows ((perm_guessRecords round).mem_iff.2 h)

/-- The rows of all rounds are in order if those of each round are, as the rounds are. -/
theorem pairwise_flatMap_rounds {α : Type} {order : α → α → Ordering} {rowsOf : Round → List α}
    (place : α → Held RoomId × Held Int) (h : duel.Steady)
    (hrows : ∀ round ∈ duel.rounds, (rowsOf round).Pairwise fun a b => order a b = .lt)
    (hplace : ∀ round, ∀ r ∈ rowsOf round, place r = round.place)
    (horder : ∀ a b, Held.numberOrder (place a).2 (place b).2 = .lt → order a b = .lt) :
    (duel.rounds.flatMap rowsOf).Pairwise fun a b => order a b = .lt := by
  refine List.pairwise_flatMap.2 ⟨hrows, h.ordered.imp fun hlt r hr r' hr' => horder r r' ?_⟩
  rw [hplace _ r hr, hplace _ r' hr']
  exact Held.numberOrder_eq_lt.2 hlt

theorem pairwise_allStandingRows (h : duel.Steady) :
    (duel.rounds.flatMap Round.standingRows).Pairwise fun a b => standingOrder a b = .lt :=
  pairwise_flatMap_rounds StandingRow.place h (fun round _ => pairwise_standingRows round)
    (fun _ _ => place_of_mem_standingRows) fun _ _ hlt => compareLex_eq_lt.2 (.inl hlt)

theorem pairwise_allGuessRows (h : duel.Steady) :
    (duel.rounds.flatMap fun round => round.guessRecords.map GuessRow.ofRecord).Pairwise
      fun a b => guessOrder a b = .lt :=
  pairwise_flatMap_rounds GuessRow.place h
    (fun round hround => pairwise_guessRows (h.rounds round hround))
    (fun _ _ => place_of_mem_guessRecords) fun _ _ hlt => compareLex_eq_lt.2 (.inl hlt)

/-! ### Reading them all -/

theorem select_roster (hnodup : duel.room.players.Nodup) (h : t.Holds duel.id (some duel)) :
    select rosterOrder (fun r => r.room = .value duel.id) t.roster =
      duel.room.rosterRecords.map .ofRecord :=
  select_eq (h.roster.trans (perm_rosterRecords duel)) (pairwise_rosterRows hnodup)

theorem select_rounds (hsteady : duel.Steady) (h : t.Holds duel.id (some duel)) :
    select roundOrder (fun r => r.room = .value duel.id) t.rounds =
      duel.rounds.map Round.row := by
  refine select_eq ?_ (pairwise_roundRows hsteady)
  rw [List.map_eq_flatMap]
  refine perm_of_places roundKey hsteady.fitting (fun round _ r hr => ?_) fun number =>
    .of_eq (h.rounds number).rounds
  rw [List.mem_singleton.1 hr]
  rfl

theorem select_standings (hsteady : duel.Steady) (h : t.Holds duel.id (some duel)) :
    select standingOrder (fun r => r.room = .value duel.id) t.standings =
      duel.rounds.flatMap Round.standingRows :=
  select_eq (perm_of_places StandingRow.place hsteady.fitting
    (fun _ _ _ => place_of_mem_standingRows) fun number => (h.rounds number).standings)
    (pairwise_allStandingRows hsteady)

theorem select_guesses (hsteady : duel.Steady) (h : t.Holds duel.id (some duel)) :
    select guessOrder (fun r => r.room = .value duel.id) t.guesses =
      duel.rounds.flatMap fun round => round.guessRecords.map .ofRecord := by
  refine select_eq (perm_of_places GuessRow.place hsteady.fitting
    (fun _ _ _ => place_of_mem_guessRecords) fun number => ?_) (pairwise_allGuessRows hsteady)
  refine (h.rounds number).guesses.trans ?_
  rw [Option.bind_some]
  cases duel.roundAt? (.value duel.id, number) with
  | none => exact .refl _
  | some round => exact perm_guessRecords round

theorem readRoom_of_holds (hsteady : duel.Steady) (h : t.Holds duel.id (some duel)) :
    t.readRoom duel.row = .ok (.ofDuel duel) := by
  have hroster : (duel.room.rosterRecords.map RosterRow.ofRecord).mapM RosterRow.read =
      .ok duel.room.rosterRecords := mapM_read fun r _ => RosterRow.read_ofRecord r
  have hrounds : (duel.rounds.map Round.row).mapM RoundRow.read =
      .ok (duel.rounds.map RoundRecord.ofRound) := by
    have hmap : duel.rounds.map Round.row = (duel.rounds.map RoundRecord.ofRound).map .ofRecord :=
      (List.map_map ..).symm
    rw [hmap, mapM_read fun r _ => RoundRow.read_ofRecord r]
  have hstandings : (duel.rounds.flatMap Round.standingRows).mapM StandingRow.read =
      .ok (duel.rounds.flatMap fun round => StandingRecord.ofRound round.room round) := by
    have hmap : duel.rounds.flatMap Round.standingRows = _ := List.map_flatMap.symm
    rw [hmap, mapM_read fun r _ => StandingRow.read_ofRecord r]
  have hguesses : (duel.rounds.flatMap fun round =>
      round.guessRecords.map GuessRow.ofRecord).mapM GuessRow.read =
        .ok (duel.rounds.flatMap Round.guessRecords) := by
    rw [← List.map_flatMap, mapM_read fun r _ => GuessRow.read_ofRecord r]
  have hrow : duel.row.read = .ok (.ofRoom duel.room) := RoomRow.read_ofRecord _
  have hid : duel.row.id = .value duel.id := rfl
  rw [readRoom, hrow, hid, select_roster hsteady.nodup h, select_rounds hsteady h,
    select_standings hsteady h, select_guesses hsteady h, hroster, hrounds, hstandings, hguesses]
  rfl

/-- A duel that the tables hold is read. -/
theorem load_of_steady {room : RoomId} {duel? : Option Duel} (h : t.Holds room duel?)
    (hduel : ∀ duel ∈ duel?, duel.Steady ∧ duel.id = room) :
    t.load room = .ok (duel?.map Duel.asRead) := by
  have hfound : t.rooms.find? (fun r => r.id == .value room) = duel?.map Duel.row := by
    refine List.head?_filter.symm.trans ?_
    show (t.rooms.filter fun r => r.id = .value room).head? = _
    rw [h.rooms]
    cases duel? <;> rfl
  rw [load, hfound]
  cases duel? with
  | none => rfl
  | some duel =>
      obtain ⟨hsteady, rfl⟩ := hduel duel rfl
      show withRead duel.id (t.readRoom duel.row) _ = _
      rw [readRoom_of_holds hsteady h, withRead, RoomRecords.toDuel_ofDuel hsteady]
      rfl

theorem load_of_holds {room : RoomId} {duel? : Option Duel} (h : t.Holds room duel?)
    (hduel : ∀ duel ∈ duel?, duel.Storable ∧ duel.id = room) :
    t.load room = .ok (duel?.map Duel.asRead) :=
  load_of_steady h fun duel hmem => ⟨(hduel duel hmem).1.steady, (hduel duel hmem).2⟩

end Room

/-! ### The rows of a round -/

section Round

variable {t : Tables} {round : Round}

theorem readRound_of_holds {room : RoomId} (hfitting : round.Fitting room)
    (h : t.HoldsRound round.place (some round)) :
    t.readRound round.row =
      .ok (.ofRound round, StandingRecord.ofRound round.room round, round.guessRecords) := by
  have hstandings : select standingOrder
      (fun r => r.room = round.row.room ∧ r.round = round.row.number) t.standings =
        round.standingRows := by
    refine select_eq ((List.Perm.of_eq ?_).trans h.standings) (pairwise_standingRows round)
    refine List.filter_congr fun r _ => decide_eq_decide.2 ?_
    rw [StandingRow.place, Round.place, Prod.mk.injEq]
    rfl
  have hguesses : select guessOrder
      (fun r => r.room = round.row.room ∧ r.round = round.row.number) t.guesses =
        round.guessRecords.map .ofRecord := by
    have hrows := h.guesses.trans (perm_guessRecords round)
    refine select_eq ((List.Perm.of_eq ?_).trans hrows) (pairwise_guessRows hfitting)
    refine List.filter_congr fun r _ => decide_eq_decide.2 ?_
    rw [GuessRow.place, Round.place, Prod.mk.injEq]
    rfl
  have hread : round.row.read = .ok (.ofRound round) := RoundRow.read_ofRecord _
  have hstandingRecords : round.standingRows.mapM StandingRow.read =
      .ok (StandingRecord.ofRound round.room round) :=
    mapM_read fun r _ => StandingRow.read_ofRecord r
  have hguessRecords : (round.guessRecords.map GuessRow.ofRecord).mapM GuessRow.read =
      .ok round.guessRecords := mapM_read fun r _ => GuessRow.read_ofRecord r
  rw [readRound, hread, hstandings, hguesses, hstandingRecords, hguessRecords]
  rfl

end Round

/-- A round of a duel that the tables hold is read. -/
theorem loadRound_of_holds {t : Tables} {room : RoomId} {duel? : Option Duel}
    (h : t.Holds room duel?) (hduel : ∀ duel ∈ duel?, duel.Storable ∧ duel.id = room)
    {number : Nat} (hnumber : number < 4294967296) :
    t.loadRound room number =
      .ok ((duel?.bind fun duel => duel.round? number).map Round.asRead) := by
  have hround := h.rounds (.value (toColumn number))
  have hat : (duel?.bind fun duel => duel.roundAt? (.value room, .value (toColumn number))) =
      duel?.bind fun duel => duel.round? number := by
    cases duel? with
    | none => rfl
    | some duel =>
        obtain ⟨hstorable, rfl⟩ := hduel duel rfl
        refine roundAt?_number hnumber fun r hr => ?_
        exact ⟨(hstorable.rounds r hr).owned, (hstorable.rounds r hr).fitting.number⟩
  rw [hat] at hround
  have hfound : t.rounds.find?
      (fun r => r.room == .value room && r.number == .value (toColumn number)) =
        (duel?.bind fun duel => duel.round? number).map Round.row := by
    have hfilter : t.rounds.filter
        (fun r => r.room == .value room && r.number == .value (toColumn number)) =
          t.rounds.filter fun r => roundKey r = (.value room, .value (toColumn number)) := by
      refine List.filter_congr fun r _ => ?_
      rw [Bool.eq_iff_iff]
      simp [roundKey]
    rw [← List.head?_filter, hfilter, hround.rounds]
    cases duel?.bind fun duel => duel.round? number <;> rfl
  rw [loadRound, hfound]
  cases hround? : duel?.bind fun duel => duel.round? number with
  | none => rfl
  | some round =>
      obtain ⟨duel, rfl, hsome⟩ := Option.bind_eq_some_iff.1 hround?
      obtain ⟨hmem, rfl⟩ := round?_eq_some hsome
      obtain ⟨hstorable, rfl⟩ := hduel duel rfl
      have hown := hstorable.rounds round hmem
      have hplace : round.place = (.value duel.id, .value (toColumn round.number)) := by
        rw [Round.place, hown.owned]
      rw [hround?, ← hplace] at hround
      show withRead duel.id (t.readRound round.row) _ = _
      rw [readRound_of_holds hown.fitting hround, withRead]
      show (((RoundRecord.ofRound round).toRound _ _).map some).mapError _ = _
      rw [RoundRecord.toRound_ofRound hown.fitting]
      rfl

end Tables

end WordDuel
