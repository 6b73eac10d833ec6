import WordDuel.Proofs.Rows
import WordDuel.Proofs.Sorting
/-!
# WordDuel.Proofs.Writing

**What writing a duel leaves in the tables.** The tables hold a duel when the rows of its
room are the ones that a duel has (`Tables.Holds`), round by round. Writing a duel over one
that the tables hold, and of which it is a continuation, breaks no key; afterwards the tables
hold the new duel, and the rows of other rooms are what they were (`Tables.write?_spec`).

Only what differs is written. That the rest is right already is where the earlier duel comes
in: the words, limits and starting times of its rounds have not changed, and its guesses are
the first ones of the new duel. What has been loaded of the earlier duel need not be this duel
itself, as its players and guesses may come in another order (`Duel.asRead`). There are as many
guesses though, and that is all that is asked of them.
-/

namespace WordDuel

/-! ### What can be stored -/

/-- A round whose numbers fit their columns and whose guesses have keys of their own. -/
structure Round.Storable (round : Round) (room : RoomId) : Prop where
  owned : round.room = room
  number : round.number < 2147483648
  limit : round.maxAttempts < 4294967296
  attempts : ∀ guess ∈ round.guesses, guess.attempt < 4294967296
  /-- No two guesses have the same player and the same number. -/
  distinct : (round.guesses.map fun guess => (guess.player, guess.attempt)).Nodup

/-- A duel that can be written: whose players and rounds can be told apart. -/
structure Duel.Writable (duel : Duel) : Prop where
  nodup : duel.room.players.Nodup
  distinct : duel.rounds.Pairwise fun a b => a.number ≠ b.number
  rounds : ∀ round ∈ duel.rounds, round.Storable duel.id

/-- A duel that the tables give back as it is, but for the order of its players and guesses if
there are too many of them. -/
structure Duel.Storable (duel : Duel) : Prop where
  nodup : duel.room.players.Nodup
  scored : ∀ player, duel.room.scores.contains player ↔ player ∈ duel.room.players
  current : ∀ number ∈ duel.room.currentRound, number < 4294967296
  ordered : duel.rounds.Pairwise fun a b => a.number < b.number
  rounds : ∀ round ∈ duel.rounds, round.Storable duel.id

theorem Duel.Storable.writable {duel : Duel} (h : duel.Storable) : duel.Writable :=
  ⟨h.nodup, h.ordered.imp Nat.ne_of_lt, h.rounds⟩

/-- A round whose numbers come back from their columns, if only by wrapping around, and whose
guesses have keys of their own. -/
structure Round.Fitting (round : Round) (room : RoomId) : Prop where
  owned : round.room = room
  number : round.number < 4294967296
  limit : round.maxAttempts < 4294967296
  attempts : ∀ guess ∈ round.guesses, guess.attempt < 4294967296
  /-- No two guesses have the same player and the same number. -/
  distinct : (round.guesses.map fun guess => (guess.player, guess.attempt)).Nodup

/-- A duel whose players and rounds have keys of their own, as its guesses have. -/
structure Duel.Fitting (duel : Duel) : Prop where
  nodup : duel.room.players.Nodup
  distinct : duel.rounds.Pairwise fun a b => a.number ≠ b.number
  rounds : ∀ round ∈ duel.rounds, round.Fitting duel.id

theorem Round.Storable.fitting {round : Round} {room : RoomId} (h : round.Storable room) :
    round.Fitting room :=
  ⟨h.owned, Nat.lt_trans h.number (by decide), h.limit, h.attempts, h.distinct⟩

theorem Duel.Writable.fitting {duel : Duel} (h : duel.Writable) : duel.Fitting :=
  ⟨h.nodup, h.distinct, fun round hround => (h.rounds round hround).fitting⟩

/-- A round in which nothing has changed but how it stands, and guesses have been added. -/
structure Round.Continues (round earlier : Round) : Prop where
  room : round.room = earlier.room
  number : round.number = earlier.number
  target : round.target = earlier.target
  maxAttempts : round.maxAttempts = earlier.maxAttempts
  startedAt : round.startedAt = earlier.startedAt
  guesses : earlier.guesses <+: round.guesses

/-- A duel with all the rounds of an earlier one, and maybe more. -/
structure Duel.Continues (duel earlier : Duel) : Prop where
  id : duel.id = earlier.id
  rounds : ∀ round ∈ earlier.rounds, ∃ round' ∈ duel.rounds, round'.Continues round

/-- A round that is no different from what has been loaded of an earlier one is the earlier one,
as no guess has been added. -/
theorem Round.Continues.eq_of_asRead {round before : Round} (h : round.Continues before)
    (hsame : before.asRead = round) : round = before := by
  have hlength : round.guesses.length = before.guesses.length := by
    rw [← hsame]
    exact before.perm_asRead.length_eq
  have hguesses : before.guesses = round.guesses := h.guesses.eq_of_length hlength.symm
  calc round = { before with guesses := round.guesses } := by rw [← hsame]; rfl
    _ = before := by rw [← hguesses]

-- From here on it only matters that columns tell numbers apart.
attribute [local irreducible] toColumn

/-! ### The rows of a duel -/

namespace Round

/-- Where the rows of a round are. -/
def place (round : Round) : Held RoomId × Held Int :=
  (.value round.room, .value (toColumn round.number))

def row (round : Round) : RoundRow := .ofRecord (.ofRound round)

def standingRows (round : Round) : List StandingRow :=
  (StandingRecord.ofRound round.room round).map .ofRecord

def guessRows (round : Round) : List GuessRow :=
  (GuessRecord.ofRound round.room round 0).map .ofRecord

end Round

/-- The round to which a standing belongs. -/
def StandingRow.place (row : StandingRow) : Held RoomId × Held Int := (row.room, row.round)

/-- The round to which a guess belongs. -/
def GuessRow.place (row : GuessRow) : Held RoomId × Held Int := (row.room, row.round)

namespace Duel

def row (duel : Duel) : RoomRow := .ofRecord (.ofRoom duel.room)

def rosterRows (duel : Duel) : List RosterRow := (RosterRecord.ofRoom duel.room).map .ofRecord

/-- The round that is found at a place in the tables. -/
def roundAt? (duel : Duel) (place : Held RoomId × Held Int) : Option Round :=
  duel.rounds.find? fun round => round.place = place

end Duel

namespace Tables

/-- The rows at a place are those of a round in some order, or there are none. -/
structure HoldsRound (t : Tables) (place : Held RoomId × Held Int) (round? : Option Round) :
    Prop where
  rounds : t.rounds.filter (fun r => roundKey r = place) = round?.elim [] fun round => [round.row]
  standings : (t.standings.filter fun r => r.place = place).Perm
    (round?.elim [] Round.standingRows)
  guesses : (t.guesses.filter fun r => r.place = place).Perm (round?.elim [] Round.guessRows)

/-- The rows of a room are those of a duel in some order, or there are none. -/
structure Holds (t : Tables) (room : RoomId) (duel? : Option Duel) : Prop where
  rooms : t.rooms.filter (fun r => r.id = .value room) = duel?.elim [] fun duel => [duel.row]
  roster : (t.roster.filter fun r => r.room = .value room).Perm (duel?.elim [] Duel.rosterRows)
  rounds : ∀ number,
    t.HoldsRound (.value room, number) (duel?.bind fun duel => duel.roundAt? (.value room, number))

theorem holds_empty (room : RoomId) : empty.Holds room none :=
  ⟨rfl, .refl _, fun _ => ⟨rfl, .refl _, .refl _⟩⟩

/-- The rounds at some places are the same, with all that belongs to them. -/
structure SameRounds (P : Held RoomId × Held Int → Bool) (t t' : Tables) : Prop where
  rounds : t'.rounds.filter (fun r => P (roundKey r)) = t.rounds.filter fun r => P (roundKey r)
  standings : t'.standings.filter (fun r => P r.place) = t.standings.filter fun r => P r.place
  guesses : t'.guesses.filter (fun r => P r.place) = t.guesses.filter fun r => P r.place

/-- The rows of all rooms but one are the same. -/
structure SameElsewhere (room : RoomId) (t t' : Tables) : Prop where
  rooms : t'.rooms.filter (fun r => r.id ≠ .value room) =
    t.rooms.filter fun r => r.id ≠ .value room
  roster : t'.roster.filter (fun r => r.room ≠ .value room) =
    t.roster.filter fun r => r.room ≠ .value room
  rounds : SameRounds (fun place => place.1 ≠ .value room) t t'

/-! ### Rows that stay -/

theorem filter_filter_of_imp {α : Type} {p q : α → Bool} (hpq : ∀ r, q r → p r) (rows : List α) :
    (rows.filter p).filter q = rows.filter q := by
  rw [List.filter_filter]
  refine List.filter_congr fun r _ => ?_
  by_cases hq : q r
  · simp [hq, hpq r hq]
  · simp [hq]

theorem filter_mono {α : Type} {p q : α → Bool} {rows rows' : List α}
    (h : rows'.filter p = rows.filter p) (hpq : ∀ r, q r → p r) :
    rows'.filter q = rows.filter q := by
  rw [← filter_filter_of_imp hpq rows', h, filter_filter_of_imp hpq]

namespace SameRounds

variable {P Q : Held RoomId × Held Int → Bool} {t t' t'' : Tables}

theorem refl (P : Held RoomId × Held Int → Bool) (t : Tables) : SameRounds P t t := ⟨rfl, rfl, rfl⟩

theorem trans (h : SameRounds P t t') (h' : SameRounds P t' t'') : SameRounds P t t'' :=
  ⟨h'.rounds.trans h.rounds, h'.standings.trans h.standings, h'.guesses.trans h.guesses⟩

theorem mono (h : SameRounds P t t') (hQ : ∀ place, Q place → P place) : SameRounds Q t t' :=
  ⟨filter_mono h.rounds fun r => hQ (roundKey r), filter_mono h.standings fun r => hQ r.place,
    filter_mono h.guesses fun r => hQ r.place⟩

theorem holdsRound (h : SameRounds P t t') {place : Held RoomId × Held Int} (hplace : P place)
    {round? : Option Round} (hround : t.HoldsRound place round?) : t'.HoldsRound place round? := by
  have hthere : SameRounds (fun k => k = place) t t' :=
    h.mono fun k hk => of_decide_eq_true hk ▸ hplace
  exact ⟨hthere.rounds.trans hround.rounds,
    (List.Perm.of_eq hthere.standings).trans hround.standings,
    (List.Perm.of_eq hthere.guesses).trans hround.guesses⟩

end SameRounds

/-- What the tables hold of another room they still hold. -/
theorem SameElsewhere.holds {t t' : Tables} {room other : RoomId} (h : SameElsewhere room t t')
    (hother : other ≠ room) {duel? : Option Duel} (hduel : t.Holds other duel?) :
    t'.Holds other duel? where
  rooms := (filter_mono h.rooms fun r hr => by
    have hr := of_decide_eq_true hr
    simp [hr, hother]).trans hduel.rooms
  roster := (List.Perm.of_eq (filter_mono h.roster fun r hr => by
    have hr := of_decide_eq_true hr
    simp [hr, hother])).trans hduel.roster
  rounds number := h.rounds.holdsRound (by simp [hother]) (hduel.rounds number)

/-! ### Writing a round -/

section Rounds

variable {t : Tables} {round : Round} {before? : Option Round}

theorem writeRoundRow_spec (hroom : t.hasRoom (.value round.room))
    (h : t.HoldsRound round.place before?) (hcont : ∀ before ∈ before?, round.Continues before) :
    ∃ rounds, t.writeRoundRow round.room (before?.map Round.asRead) round =
        some { t with rounds } ∧
      Replaced roundKey round.place [round.row] t.rounds rounds := by
  cases before? with
  | none =>
      obtain ⟨hadd, hreplaced⟩ := addRow_spec roundKey round.row h.rounds
      have hinsert : t.insertRound round.row =
          some { t with rounds := t.rounds ++ [round.row] } := by
        have hroom : t.hasRoom round.row.room := hroom
        rw [insertRound, if_pos hroom, hadd]
        rfl
      exact ⟨_, hinsert, hreplaced⟩
  | some before =>
      obtain ⟨hr, hnumber, htarget, hmax, hstarted, -⟩ := hcont before rfl
      rw [Option.map_some, writeRoundRow]
      split
      · have hmap : (t.rounds.map fun r =>
              if r.room = .value round.room ∧ r.number = round.row.number then round.row else r) =
            t.rounds.map fun r => if roundKey r = round.place then round.row else r := by
          refine List.map_congr_left fun r _ =>
            ite_congr (propext ?_) (fun _ => rfl) fun _ => rfl
          rw [roundKey, Round.place, Prod.mk.injEq]
          rfl
        refine ⟨_, ?_, Replaced.updated h.rounds rfl⟩
        show t.updateRound round.room round.row = _
        rw [updateRound, hmap]
        exact if_pos (.inl rfl)
      · next hsame =>
        have hstatus : before.status = round.status := Decidable.not_not.1 (not_or.1 hsame).1
        have hfinished : before.finishedAt = round.finishedAt :=
          Decidable.not_not.1 (not_or.1 hsame).2
        have hrow : round.row = before.row := by
          rw [Round.row, Round.row, RoundRecord.ofRound, RoundRecord.ofRound, hr, hnumber, htarget,
            hmax, hstarted, hstatus, hfinished]
        exact ⟨t.rounds, rfl, hrow ▸ .refl (.of_eq h.rounds)⟩

theorem nodup_standingKey (round : Round) : (round.standingRows.map standingKey).Nodup := by
  have hkeys : round.standings.entries.Pairwise fun a b => a.1 ≠ b.1 :=
    round.standings.sorted.imp fun {a b} hlt heq => by
      rw [heq] at hlt
      exact absurd hlt (by simp)
  simp only [Round.standingRows, StandingRecord.ofRound, List.map_map,
    List.nodup_iff_pairwise_ne, List.pairwise_map]
  exact hkeys.imp fun hne heq => hne (by simpa [standingKey, StandingRow.ofRecord] using heq)

theorem place_of_mem_standingRows {r : StandingRow} (h : r ∈ round.standingRows) :
    r.place = round.place := by
  simp only [Round.standingRows, StandingRecord.ofRound, List.map_map, List.mem_map] at h
  obtain ⟨entry, -, rfl⟩ := h
  rfl

theorem place_of_standingKey {r r' : StandingRow} (h : standingKey r = standingKey r') :
    r.place = r'.place := by
  obtain ⟨hroom, hrest⟩ := Prod.mk.inj h
  exact Prod.ext hroom (Prod.mk.inj hrest).1

theorem writeStandings_spec (hround : t.hasRound round.place.1 round.place.2)
    (h : (t.standings.filter fun r => r.place = round.place).Perm
      (before?.elim [] Round.standingRows))
    (hcont : ∀ before ∈ before?, round.Continues before) :
    ∃ standings, t.writeStandings round.room (before?.map Round.asRead) round =
        some { t with standings } ∧
      Replaced StandingRow.place round.place round.standingRows t.standings standings := by
  rw [writeStandings]
  split
  · have hrest : (t.standings.filter fun r =>
          ¬(r.room = .value round.room ∧ r.round = .value (toColumn round.number))) =
        t.standings.filter fun r => r.place ≠ round.place := by
      refine List.filter_congr fun r _ => ?_
      simp [StandingRow.place, Round.place]
    have hadd : addRows standingKey (t.standings.filter fun r => r.place ≠ round.place)
        round.standingRows =
          some (t.standings.filter (fun r => r.place ≠ round.place) ++ round.standingRows) :=
      addRows_refill (nodup_standingKey round) (fun r => place_of_mem_standingRows)
        fun r r' => place_of_standingKey
    refine ⟨_, ?_, Replaced.refilled fun r => place_of_mem_standingRows⟩
    rw [replaceStandings, if_pos, hrest]
    · show (addRows standingKey _ round.standingRows).bind _ = _
      rw [hadd]
      rfl
    · refine List.all_eq_true.2 fun r hr => ?_
      have hplace : r.place = round.place := place_of_mem_standingRows hr
      obtain ⟨hroom, hnumber⟩ := Prod.mk.inj hplace
      rw [hroom, hnumber]
      exact hround
  · next hsame =>
    cases before? with
    | none => exact (hsame rfl).elim
    | some before =>
        have hstandings : before.standings = round.standings := by
          simpa [Round.asRead] using hsame
        obtain ⟨hroom, hnumber, -⟩ := hcont before rfl
        have hrows : round.standingRows = before.standingRows := by
          rw [Round.standingRows, Round.standingRows, StandingRecord.ofRound,
            StandingRecord.ofRound, hroom, hnumber, hstandings]
        exact ⟨t.standings, rfl, hrows ▸ .refl h⟩

theorem place_of_mem_guessRows {r : GuessRow} {stored : Nat}
    (h : r ∈ (GuessRecord.ofRound round.room round stored).map GuessRow.ofRecord) :
    r.place = round.place := by
  simp only [GuessRecord.ofRound, List.map_map, List.mem_map] at h
  obtain ⟨entry, -, rfl⟩ := h
  rfl

/-- The rows of a round's guesses are those of its earlier guesses and then the new ones. -/
theorem guessRows_eq {before : Round} (h : round.Continues before) :
    round.guessRows = before.guessRows ++
      (GuessRecord.ofRound round.room round before.guesses.length).map .ofRecord := by
  obtain ⟨new, hguesses⟩ := h.guesses
  have hlength : before.guesses.length = before.guesses.zipIdx.length := by simp
  simp only [Round.guessRows, GuessRecord.ofRound, ← hguesses, h.room, h.number, List.drop_zero,
    List.zipIdx_append, List.map_append]
  rw [hlength, List.drop_left]

theorem nodup_guessKey {room : RoomId} (h : round.Fitting room) :
    (round.guessRows.map guessKey).Nodup := by
  have hkeys : round.guessRows.map guessKey = round.guesses.map fun guess =>
      (.value round.room, .value (toColumn round.number), .value guess.player,
        .value (toColumn guess.attempt)) := by
    have hguesses : round.guesses.zipIdx.map Prod.fst = round.guesses := by simp
    simp only [Round.guessRows, GuessRecord.ofRound, List.drop_zero, List.map_map]
    conv => rhs; rw [← hguesses, List.map_map]
    rfl
  rw [hkeys, List.nodup_iff_pairwise_ne, List.pairwise_map]
  have hdistinct := List.pairwise_map.1 (List.nodup_iff_pairwise_ne.1 h.distinct)
  refine hdistinct.imp_of_mem fun {a b} ha hb hne heq => hne ?_
  simp only [Prod.mk.injEq, Held.value.injEq, true_and] at heq
  exact Prod.ext heq.1 ((toColumn_inj (h.attempts a ha) (h.attempts b hb)).1 heq.2)

theorem insertGuesses_spec {room : RoomId} (hfitting : round.Fitting room)
    (hround : t.hasRound round.place.1 round.place.2)
    (h : (t.guesses.filter fun r => r.place = round.place).Perm
      (before?.elim [] Round.guessRows))
    (hcont : ∀ before ∈ before?, round.Continues before) :
    ∃ guesses, t.insertGuesses ((GuessRecord.ofRound round.room round
        (before?.elim 0 fun before => before.guesses.length)).map .ofRecord) =
          some { t with guesses } ∧
      Replaced GuessRow.place round.place round.guessRows t.guesses guesses := by
  generalize hnew : (GuessRecord.ofRound round.room round
    (before?.elim 0 fun before => before.guesses.length)).map GuessRow.ofRecord = new
  have hplace : ∀ r ∈ new, r.place = round.place := by
    rintro r hr
    rw [← hnew] at hr
    exact place_of_mem_guessRows hr
  have hrows : round.guessRows = before?.elim [] Round.guessRows ++ new := by
    cases before? with
    | none => exact hnew
    | some before => exact (guessRows_eq (hcont before rfl)).trans (by rw [← hnew]; rfl)
  have hnodup := nodup_guessKey hfitting
  rw [hrows, List.map_append, List.nodup_append] at hnodup
  obtain ⟨-, hnodup, hdisjoint⟩ := hnodup
  have hadd : addRows guessKey t.guesses new = some (t.guesses ++ new) := by
    refine addRows_eq hnodup fun r hr hmem => ?_
    obtain ⟨r', hr', hkey⟩ := List.mem_map.1 hmem
    -- A row with such a key belongs to this round, and is therefore one of the earlier ones.
    have hsame : r'.place = r.place := by
      obtain ⟨hroom, hrest⟩ := Prod.mk.inj hkey
      exact Prod.ext hroom (Prod.mk.inj hrest).1
    have hearlier : r' ∈ before?.elim [] Round.guessRows :=
      h.mem_iff.1 (List.mem_filter.2 ⟨hr', decide_eq_true (hsame.trans (hplace r hr))⟩)
    exact hdisjoint _ (List.mem_map_of_mem hearlier) _ (List.mem_map_of_mem hr) hkey
  refine ⟨t.guesses ++ new, ?_, hrows ▸ Replaced.added h hplace⟩
  rw [insertGuesses, if_pos, hadd]
  · rfl
  · refine List.all_eq_true.2 fun r hr => ?_
    obtain ⟨hroom, hnumber⟩ := Prod.mk.inj (hplace r hr)
    rw [hroom, hnumber]
    exact hround

theorem hasRound_of_replaced {rounds : List RoundRow}
    (h : Replaced roundKey round.place [round.row] t.rounds rounds) :
    { t with rounds }.hasRound round.place.1 round.place.2 := by
  have hmem : round.row ∈ rounds.filter fun r => roundKey r = round.place :=
    h.here.mem_iff.2 (List.mem_singleton.2 rfl)
  refine List.any_eq_true.2 ⟨round.row, (List.mem_filter.1 hmem).1, ?_⟩
  rw [Bool.and_eq_true, beq_iff_eq, beq_iff_eq]
  exact ⟨rfl, rfl⟩

/-- Writing a round leaves its rows in its place and does nothing elsewhere. -/
theorem writeRound_spec {room : RoomId} {duel? : Option Duel} (hfitting : round.Fitting room)
    (hroom : t.hasRoom (.value room))
    (h : t.HoldsRound round.place (duel?.bind fun duel => duel.round? round.number))
    (hcont : ∀ before ∈ duel?.bind fun duel => duel.round? round.number, round.Continues before) :
    ∃ t', writeRound room (duel?.map Duel.asRead) t round = some t' ∧
      t'.HoldsRound round.place (some round) ∧
      SameRounds (fun place => place ≠ round.place) t t' ∧
      t'.rooms = t.rooms ∧ t'.roster = t.roster := by
  obtain rfl := hfitting.owned
  rw [writeRound, round?_of_loaded]
  generalize (duel?.bind fun duel => duel.round? round.number) = before? at h hcont
  split
  · next hsame =>
    obtain ⟨before, rfl, hread⟩ := Option.map_eq_some_iff.1 hsame
    obtain rfl := (hcont before rfl).eq_of_asRead hread
    exact ⟨t, rfl, h, .refl _ t, rfl, rfl⟩
  · obtain ⟨rounds, hrounds, hrows⟩ := writeRoundRow_spec hroom h hcont
    have hround := hasRound_of_replaced hrows
    obtain ⟨standings, hstandings, hstandingRows⟩ :=
      writeStandings_spec (t := { t with rounds }) hround h.standings hcont
    obtain ⟨guesses, hguesses, hguessRows⟩ :=
      insertGuesses_spec (t := { t with rounds, standings }) hfitting hround h.guesses hcont
    refine ⟨{ t with rounds, standings, guesses }, ?_,
      ⟨List.perm_singleton.1 hrows.here, hstandingRows.here, hguessRows.here⟩,
      ⟨hrows.elsewhere, hstandingRows.elsewhere, hguessRows.elsewhere⟩, rfl, rfl⟩
    have hstored : ((before?.map Round.asRead).elim 0 fun before => before.guesses.length) =
        before?.elim 0 fun before => before.guesses.length := by
      cases before? with
      | none => rfl
      | some before => exact before.perm_asRead.length_eq
    rw [hrounds]
    show ((writeStandings _ _ _ _).bind _) = _
    rw [hstandings, hstored]
    exact hguesses

end Rounds

theorem place_eq_iff {a b : Round} {room : RoomId} (ha : a.Fitting room) (hb : b.Fitting room) :
    a.place = b.place ↔ a.number = b.number := by
  have hnumber := toColumn_inj ha.number hb.number
  simp [Round.place, ha.owned, hb.owned, hnumber]

/-- Writing rounds leaves the rows of each in its place and does nothing elsewhere. -/
theorem writeRounds_spec {room : RoomId} {duel? : Option Duel} {rounds : List Round}
    (hdistinct : rounds.Pairwise fun a b => a.number ≠ b.number)
    (hfitting : ∀ round ∈ rounds, round.Fitting room) {t : Tables}
    (hroom : t.hasRoom (.value room))
    (h : ∀ round ∈ rounds,
      t.HoldsRound round.place (duel?.bind fun duel => duel.round? round.number))
    (hcont : ∀ round ∈ rounds, ∀ before ∈ duel?.bind fun duel => duel.round? round.number,
      round.Continues before) :
    ∃ t', rounds.foldlM (writeRound room (duel?.map Duel.asRead)) t = some t' ∧
      (∀ round ∈ rounds, t'.HoldsRound round.place (some round)) ∧
      SameRounds (fun place => place ∉ rounds.map Round.place) t t' ∧
      t'.rooms = t.rooms ∧ t'.roster = t.roster := by
  induction rounds generalizing t with
  | nil => exact ⟨t, rfl, fun _ hround => (List.not_mem_nil hround).elim, .refl _ t, rfl, rfl⟩
  | cons round rounds ih =>
      obtain ⟨hfirst, hdistinct⟩ := List.pairwise_cons.1 hdistinct
      have hround := hfitting round List.mem_cons_self
      have hrest := fun r hr => hfitting r (List.mem_cons_of_mem round hr)
      have hplaces : ∀ r ∈ rounds, r.place ≠ round.place := fun r hr heq =>
        (hfirst r hr).symm ((place_eq_iff (hrest r hr) hround).1 heq)
      obtain ⟨t₁, hwrite, hholds, hsame, hrooms, hroster⟩ := writeRound_spec hround hroom
        (h round List.mem_cons_self) (hcont round List.mem_cons_self)
      have hroom₁ : t₁.hasRoom (.value room) := by
        rw [hasRoom, hrooms]
        exact hroom
      obtain ⟨t', hwrites, hall, hsame', hrooms', hroster'⟩ := ih hdistinct hrest hroom₁
        (fun r hr => hsame.holdsRound (decide_eq_true (hplaces r hr))
          (h r (List.mem_cons_of_mem _ hr)))
        (fun r hr => hcont r (List.mem_cons_of_mem _ hr))
      have hkept : round.place ∉ rounds.map Round.place := by
        intro hmem
        obtain ⟨r, hr, heq⟩ := List.mem_map.1 hmem
        exact hplaces r hr heq
      refine ⟨t', ?_, fun r hr => ?_, ?_, hrooms'.trans hrooms, hroster'.trans hroster⟩
      · rw [List.foldlM_cons, hwrite]
        exact hwrites
      · rcases List.mem_cons.1 hr with rfl | hr
        · exact hsame'.holdsRound (decide_eq_true hkept) hholds
        · exact hall r hr
      · refine (hsame.mono fun place hplace => ?_).trans (hsame'.mono fun place hplace => ?_)
        · have hplace := of_decide_eq_true hplace
          exact decide_eq_true fun heq => hplace (heq ▸ List.mem_cons_self)
        · have hplace := of_decide_eq_true hplace
          exact decide_eq_true fun hmem => hplace (List.mem_cons_of_mem _ hmem)

/-! ### Writing a duel -/

section Duels

variable {t : Tables} {duel : Duel} {before? : Option Duel}

theorem writeRoom_spec
    (h : t.rooms.filter (fun r => r.id = .value duel.id) = before?.elim [] fun d => [d.row]) :
    ∃ rooms, t.writeRoom (before?.map Duel.asRead) duel = some { t with rooms } ∧
      Replaced RoomRow.id (.value duel.id) [duel.row] t.rooms rooms := by
  cases before? with
  | none =>
      obtain ⟨hadd, hreplaced⟩ := addRow_spec RoomRow.id duel.row h
      refine ⟨_, ?_, hreplaced⟩
      show t.insertRoom duel.row = _
      rw [insertRoom, hadd]
      rfl
  | some before => exact ⟨_, rfl, Replaced.updated h rfl⟩

theorem place_of_mem_rosterRows {r : RosterRow} (h : r ∈ duel.rosterRows) :
    r.room = .value duel.id := by
  simp only [Duel.rosterRows, RosterRecord.ofRoom, List.map_map, List.mem_map] at h
  obtain ⟨entry, -, rfl⟩ := h
  rfl

theorem nodup_rosterKey_iff :
    (duel.rosterRows.map rosterKey).Nodup ↔ duel.room.players.Nodup := by
  have hkeys : duel.rosterRows.map rosterKey =
      duel.room.players.map fun player => (.value duel.id, .value player) := by
    have hplayers : duel.room.players.zipIdx.map Prod.fst = duel.room.players := by simp
    simp only [Duel.rosterRows, RosterRecord.ofRoom, List.map_map]
    conv => rhs; rw [← hplayers, List.map_map]
    rfl
  rw [hkeys, List.nodup_iff_pairwise_ne, List.pairwise_map, List.nodup_iff_pairwise_ne]
  simp

/-- A roster that is no different from what has been loaded is the one that is stored, unless it
is too long to be loaded in order. -/
theorem writeRoster_spec (hnodup : duel.room.players.Nodup) (hroom : t.hasRoom (.value duel.id))
    (h : (t.roster.filter fun r => r.room = .value duel.id).Perm
      (before?.elim [] Duel.rosterRows))
    (hid : ∀ before ∈ before?, duel.id = before.id)
    (hshort : ∀ before ∈ before?, duel.room.players.length ≤ 2147483648) :
    ∃ roster, t.writeRoster (before?.map Duel.asRead) duel = some { t with roster } ∧
      Replaced RosterRow.room (.value duel.id) duel.rosterRows t.roster roster := by
  rw [writeRoster]
  split
  · have hadd : addRows rosterKey (t.roster.filter fun r => r.room ≠ .value duel.id)
        duel.rosterRows =
          some (t.roster.filter (fun r => r.room ≠ .value duel.id) ++ duel.rosterRows) :=
      addRows_refill (nodup_rosterKey_iff.2 hnodup) (fun r => place_of_mem_rosterRows)
        fun r r' hkey => (Prod.mk.inj hkey).1
    refine ⟨_, ?_, Replaced.refilled fun r => place_of_mem_rosterRows⟩
    rw [replaceRoster, if_pos]
    · show (addRows rosterKey _ duel.rosterRows).bind _ = _
      rw [hadd]
      rfl
    · refine List.all_eq_true.2 fun r hr => ?_
      have hplace : r.room = .value duel.id := place_of_mem_rosterRows hr
      rw [hplace]
      exact hroom
  · next hsame =>
    cases before? with
    | none => exact (hsame rfl).elim
    | some before =>
        simp only [Option.map_some, Option.all_some, decide_eq_true_eq, not_or,
          Decidable.not_not] at hsame
        obtain ⟨hread, hscores⟩ := hsame
        have hlength : before.room.players.length = duel.room.players.length := by
          rw [← hread]
          exact before.room.perm_asRead.length_eq.symm
        have hplayers : before.room.players = duel.room.players := by
          rw [← hread, Duel.asRead, Room.asRead_eq (hlength ▸ hshort before rfl)]
        have hroomId : duel.room.id = before.room.id := hid before rfl
        have hpoints : before.room.scores = duel.room.scores := hscores
        have hrows : duel.rosterRows = before.rosterRows := by
          simp only [Duel.rosterRows, RosterRecord.ofRoom, Room.pointsOf, hroomId, hplayers,
            hpoints]
        exact ⟨t.roster, rfl, hrows ▸ .refl h⟩

end Duels

/-! ### What a duel continues -/

section Continuations

variable {duel before : Duel} {round r : Round} {place : Held RoomId × Held Int}

theorem roundAt?_eq_some (h : duel.roundAt? place = some round) :
    round ∈ duel.rounds ∧ round.place = place := by
  rw [Duel.roundAt?] at h
  exact ⟨List.mem_of_find?_eq_some h, by simpa using List.find?_some h⟩

theorem round?_eq_some {number : Nat} (h : duel.round? number = some round) :
    round ∈ duel.rounds ∧ round.number = number := by
  rw [Duel.round?] at h
  exact ⟨List.mem_of_find?_eq_some h, by simpa using List.find?_some h⟩

/-- Rounds are told apart by their numbers. -/
theorem eq_of_number {rounds : List Round} (h : rounds.Pairwise fun a b => a.number ≠ b.number)
    (hround : round ∈ rounds) (hr : r ∈ rounds) (heq : round.number = r.number) : round = r := by
  rcases eq_or_of_pairwise h hround hr with hsame | hne | hne
  · exact hsame
  · exact (hne heq).elim
  · exact (hne heq.symm).elim

/-- Rounds are told apart by their places as they are by their numbers. -/
theorem roundAt?_number {room : RoomId} {number : Nat} (hnumber : number < 4294967296)
    (h : ∀ r ∈ duel.rounds, r.room = room ∧ r.number < 4294967296) :
    duel.roundAt? (.value room, .value (toColumn number)) = duel.round? number := by
  have hplace : ∀ r ∈ duel.rounds,
      decide (r.place = (.value room, .value (toColumn number))) = (r.number == number) := by
    intro r hr
    obtain ⟨hroom, hsmall⟩ := h r hr
    have hcolumn := toColumn_inj hsmall hnumber
    rw [Bool.eq_iff_iff, decide_eq_true_iff, beq_iff_eq]
    simp [Round.place, hroom, hcolumn]
  rw [Duel.roundAt?, Duel.round?]
  revert hplace
  induction duel.rounds with
  | nil => exact fun _ => rfl
  | cons r rounds ih =>
      intro hplace
      rw [List.find?_cons, List.find?_cons, hplace r List.mem_cons_self,
        ih fun r hr => hplace r (List.mem_cons_of_mem _ hr)]

/-- An earlier round fits the tables if the round that continues it does. -/
theorem small_of_continues (hfitting : duel.Fitting) (h : duel.Continues before) :
    ∀ r ∈ before.rounds, r.room = duel.id ∧ r.number < 4294967296 := by
  intro r hr
  obtain ⟨round, hround, hcontinues⟩ := h.rounds r hr
  have hround := hfitting.rounds round hround
  exact ⟨hcontinues.room ▸ hround.owned, hcontinues.number ▸ hround.number⟩

theorem continues_of_round? (hfitting : duel.Fitting) (h : duel.Continues before)
    (hround : round ∈ duel.rounds) (hr : before.round? round.number = some r) :
    round.Continues r := by
  obtain ⟨hmem, hnumber⟩ := round?_eq_some hr
  obtain ⟨round', hround', hcontinues⟩ := h.rounds r hmem
  obtain rfl := eq_of_number hfitting.distinct hround' hround (hcontinues.number.trans hnumber)
  exact hcontinues

theorem roundAt?_eq_none_iff : duel.roundAt? place = none ↔ place ∉ duel.rounds.map Round.place := by
  rw [Duel.roundAt?, List.find?_eq_none, List.mem_map]
  simp

/-- Where there is no round, there was none before. -/
theorem roundAt?_eq_none_of_continues (h : duel.Continues before)
    (hplace : place ∉ duel.rounds.map Round.place) : before.roundAt? place = none := by
  refine Option.eq_none_iff_forall_ne_some.2 fun r hr => hplace ?_
  obtain ⟨hmem, hat⟩ := roundAt?_eq_some hr
  obtain ⟨round, hround, hcontinues⟩ := h.rounds r hmem
  refine List.mem_map.2 ⟨round, hround, ?_⟩
  rw [← hat, Round.place, Round.place, hcontinues.room, hcontinues.number]

variable {t : Tables} {before? : Option Duel}

/-- What the tables hold of a round before it is written is the round that it continues. -/
theorem Holds.earlier (h : t.Holds duel.id before?) (hfitting : duel.Fitting)
    (hcont : ∀ before ∈ before?, duel.Continues before) (hround : round ∈ duel.rounds) :
    t.HoldsRound round.place (before?.bind fun before => before.round? round.number) := by
  have hown := hfitting.rounds round hround
  have hplace : round.place = (.value duel.id, .value (toColumn round.number)) := by
    rw [Round.place, hown.owned]
  have hfound : (before?.bind fun before => before.roundAt? round.place) =
      before?.bind fun before => before.round? round.number := by
    cases before? with
    | none => rfl
    | some before =>
        rw [hplace]
        exact roundAt?_number hown.number (small_of_continues hfitting (hcont before rfl))
  have hrows := h.rounds (.value (toColumn round.number))
  rwa [← hplace, hfound] at hrows

/-- The tables hold nothing where the duel has no round. -/
theorem Holds.nothing (h : t.Holds duel.id before?)
    (hcont : ∀ before ∈ before?, duel.Continues before) {number : Held Int}
    (hfree : (.value duel.id, number) ∉ duel.rounds.map Round.place) :
    t.HoldsRound (.value duel.id, number) none := by
  have hnone : (before?.bind fun before => before.roundAt? (.value duel.id, number)) = none := by
    cases before? with
    | none => rfl
    | some before => exact roundAt?_eq_none_of_continues (hcont before rfl) hfree
  have hrows := h.rounds number
  rwa [hnone] at hrows

end Continuations

/-- A duel that continues what the tables hold can be written over what has been loaded of it, and
the tables hold it then. The rows of other rooms stay as they are. -/
theorem write?_of_fitting {t : Tables} {duel : Duel} {before? : Option Duel} (hfitting : duel.Fitting)
    (h : t.Holds duel.id before?) (hcont : ∀ before ∈ before?, duel.Continues before)
    (hshort : ∀ before ∈ before?, duel.room.players.length ≤ 2147483648) :
    ∃ t', t.write? (before?.map Duel.asRead) duel = some t' ∧ t'.Holds duel.id (some duel) ∧
      SameElsewhere duel.id t t' := by
  obtain ⟨rooms, hwriteRoom, hrooms⟩ := writeRoom_spec h.rooms
  have hroom : { t with rooms }.hasRoom (.value duel.id) := by
    have hmem : duel.row ∈ rooms.filter fun r => r.id = .value duel.id :=
      hrooms.here.mem_iff.2 (List.mem_singleton.2 rfl)
    exact List.any_eq_true.2 ⟨duel.row, (List.mem_filter.1 hmem).1, beq_iff_eq.2 rfl⟩
  obtain ⟨roster, hwriteRoster, hroster⟩ := writeRoster_spec (t := { t with rooms })
    hfitting.nodup hroom h.roster (fun before hbefore => (hcont before hbefore).id) hshort
  have hbefore : ∀ round ∈ duel.rounds, { t with rooms, roster }.HoldsRound round.place
      (before?.bind fun before => before.round? round.number) := by
    intro round hround
    obtain ⟨hrow, hstandings, hguesses⟩ := h.earlier hfitting hcont hround
    exact ⟨hrow, hstandings, hguesses⟩
  obtain ⟨t', hwrites, hheld, hsame, hrooms', hroster'⟩ :=
    writeRounds_spec (t := { t with rooms, roster }) hfitting.distinct hfitting.rounds hroom
      hbefore fun round hround r hr => by
        obtain ⟨before, hbefore, hr⟩ := Option.bind_eq_some_iff.1 hr
        exact continues_of_round? hfitting (hcont before hbefore) hround hr
  refine ⟨t', ?_, ⟨?_, ?_, fun number => ?_⟩, ⟨?_, ?_, ?_⟩⟩
  · rw [write?, hwriteRoom]
    show (writeRoster _ _ duel).bind _ = _
    rw [hwriteRoster]
    exact hwrites
  · rw [hrooms']
    exact List.perm_singleton.1 hrooms.here
  · rw [hroster']
    exact hroster.here
  · show t'.HoldsRound _ (duel.roundAt? (.value duel.id, number))
    cases hfound : duel.roundAt? (.value duel.id, number) with
    | some round =>
        obtain ⟨hmem, hplace⟩ := roundAt?_eq_some hfound
        exact hplace ▸ hheld round hmem
    | none =>
        have hfree := roundAt?_eq_none_iff.1 hfound
        obtain ⟨hrow, hstandings, hguesses⟩ := h.nothing hcont hfree
        exact hsame.holdsRound (decide_eq_true hfree) ⟨hrow, hstandings, hguesses⟩
  · rw [hrooms']
    exact hrooms.elsewhere
  · rw [hroster']
    exact hroster.elsewhere
  · have hmono := hsame.mono (Q := fun place => place.1 ≠ .value duel.id) fun place hplace => by
      refine decide_eq_true fun hmem => of_decide_eq_true hplace ?_
      obtain ⟨round, hround, rfl⟩ := List.mem_map.1 hmem
      rw [Round.place, (hfitting.rounds round hround).owned]
    exact ⟨hmono.rounds, hmono.standings, hmono.guesses⟩

theorem write?_spec {t : Tables} {duel : Duel} {before? : Option Duel} (hwritable : duel.Writable)
    (h : t.Holds duel.id before?) (hcont : ∀ before ∈ before?, duel.Continues before)
    (hshort : ∀ before ∈ before?, duel.room.players.length ≤ 2147483648) :
    ∃ t', t.write? (before?.map Duel.asRead) duel = some t' ∧ t'.Holds duel.id (some duel) ∧
      SameElsewhere duel.id t t' :=
  write?_of_fitting hwritable.fitting h hcont hshort

end Tables

end WordDuel
