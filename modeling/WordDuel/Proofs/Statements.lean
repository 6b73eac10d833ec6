import WordDuel.Proofs.Writing
/-!
# WordDuel.Proofs.Statements

**What the statements of a write can do.** Writing a duel is a row of statements, some of
which are left out, and a statement that succeeds does one of seven things (`Statement`). So
what no statement of a write destroys, no write destroys (`write?_induction`). The first of
these things is that the keys are in order (`Sound.write?`): whatever is written over whatever
was loaded, a write that succeeds leaves no key and no reference broken.
-/

namespace WordDuel

namespace Tables

/-! ### Rows with keys of their own -/

section Keys

variable {α κ : Type} [DecidableEq κ] {key : α → κ} {rows rows' new : List α} {row : α}

theorem addRow_eq_some_iff :
    addRow key rows row = some rows' ↔ key row ∉ rows.map key ∧ rows' = rows ++ [row] := by
  rw [addRow]
  split
  · next hmem => simp [hmem]
  · next hnew => simp [hnew, eq_comm]

/-- Rows that could be added are there now, and no two rows share a key if none did before. -/
theorem addRows_eq_some (h : addRows key rows new = some rows') :
    rows' = rows ++ new ∧ ((rows.map key).Nodup → (rows'.map key).Nodup) := by
  induction new generalizing rows with
  | nil =>
      obtain rfl := Option.some.inj h
      exact ⟨(List.append_nil _).symm, id⟩
  | cons row new ih =>
      obtain ⟨rows₁, hrow, hrest⟩ := Option.bind_eq_some_iff.1 h
      obtain ⟨hnew, rfl⟩ := addRow_eq_some_iff.1 hrow
      obtain ⟨rfl, hkeys⟩ := ih hrest
      refine ⟨by simp, fun hnodup => hkeys ?_⟩
      rw [List.map_append, List.map_singleton, List.nodup_append]
      refine ⟨hnodup, by simp, fun k hk k' hk' heq => hnew ?_⟩
      rw [← List.mem_singleton.1 hk', ← heq]
      exact hk

end Keys

theorem hasRoom_iff {t : Tables} {room : Held RoomId} :
    t.hasRoom room ↔ room ∈ t.rooms.map RoomRow.id := by
  simp [hasRoom]

theorem hasRound_iff {t : Tables} {room : Held RoomId} {number : Held Int} :
    t.hasRound room number ↔ (room, number) ∈ t.rounds.map roundKey := by
  simp [hasRound, roundKey]

/-! ### What a statement checks and leaves -/

section Inversion

variable {t t' : Tables}

theorem insertRoom_eq_some {row : RoomRow} (h : t.insertRoom row = some t') :
    row.id ∉ t.rooms.map RoomRow.id ∧ t' = { t with rooms := t.rooms ++ [row] } := by
  obtain ⟨rooms, hadd, hrooms⟩ := Option.bind_eq_some_iff.1 h
  obtain rfl := Option.some.inj hrooms
  obtain ⟨hnew, rfl⟩ := addRow_eq_some_iff.1 hadd
  exact ⟨hnew, rfl⟩

theorem replaceRoster_eq_some {room : RoomId} {new : List RosterRow}
    (h : t.replaceRoster room new = some t') :
    (∀ r ∈ new, t.hasRoom r.room) ∧
      ∃ roster, addRows rosterKey (t.roster.filter fun r => r.room ≠ .value room) new =
        some roster ∧ t' = { t with roster } := by
  rw [replaceRoster] at h
  split at h
  · next hall =>
    obtain ⟨roster, hadd, hroster⟩ := Option.bind_eq_some_iff.1 h
    exact ⟨List.all_eq_true.1 hall, roster, hadd, (Option.some.inj hroster).symm⟩
  · cases h

theorem insertRound_eq_some {row : RoundRow} (h : t.insertRound row = some t') :
    t.hasRoom row.room ∧ roundKey row ∉ t.rounds.map roundKey ∧
      t' = { t with rounds := t.rounds ++ [row] } := by
  rw [insertRound] at h
  split at h
  · next hroom =>
    obtain ⟨rounds, hadd, hrounds⟩ := Option.bind_eq_some_iff.1 h
    obtain rfl := Option.some.inj hrounds
    obtain ⟨hnew, rfl⟩ := addRow_eq_some_iff.1 hadd
    exact ⟨hroom, hnew, rfl⟩
  · cases h

theorem replaceStandings_eq_some {room : RoomId} {number : Int} {new : List StandingRow}
    (h : t.replaceStandings room number new = some t') :
    (∀ r ∈ new, t.hasRound r.room r.round) ∧
      ∃ standings, addRows standingKey
        (t.standings.filter fun r => ¬(r.room = .value room ∧ r.round = .value number)) new =
          some standings ∧ t' = { t with standings } := by
  rw [replaceStandings] at h
  split at h
  · next hall =>
    obtain ⟨standings, hadd, hstandings⟩ := Option.bind_eq_some_iff.1 h
    exact ⟨List.all_eq_true.1 hall, standings, hadd, (Option.some.inj hstandings).symm⟩
  · cases h

theorem insertGuesses_eq_some {new : List GuessRow} (h : t.insertGuesses new = some t') :
    (∀ r ∈ new, t.hasRound r.room r.round) ∧
      ∃ guesses, addRows guessKey t.guesses new = some guesses ∧ t' = { t with guesses } := by
  rw [insertGuesses] at h
  split at h
  · next hall =>
    obtain ⟨guesses, hadd, hguesses⟩ := Option.bind_eq_some_iff.1 h
    exact ⟨List.all_eq_true.1 hall, guesses, hadd, (Option.some.inj hguesses).symm⟩
  · cases h

end Inversion

/-! ### Statements of a write -/

/-- A statement of writing a duel that succeeds: what has been checked, and what is left. -/
inductive Statement (duel : Duel) : Tables → Tables → Prop
  | insertRoom {t : Tables} (new : duel.row.id ∉ t.rooms.map RoomRow.id) :
    Statement duel t { t with rooms := t.rooms ++ [duel.row] }
  | updateRoom {t : Tables} : Statement duel t (t.updateRoom duel.row)
  | replaceRoster {t : Tables} {roster : List RosterRow}
    (belongs : ∀ r ∈ duel.rosterRows, t.hasRoom r.room)
    (added : addRows rosterKey (t.roster.filter fun r => r.room ≠ .value duel.id)
      duel.rosterRows = some roster) :
    Statement duel t { t with roster }
  | insertRound {t : Tables} {round : Round} (mem : round ∈ duel.rounds)
    (belongs : t.hasRoom round.row.room) (new : roundKey round.row ∉ t.rounds.map roundKey) :
    Statement duel t { t with rounds := t.rounds ++ [round.row] }
  | updateRound {t t' : Tables} {round : Round} (mem : round ∈ duel.rounds)
    (updated : t.updateRound duel.id round.row = some t') :
    Statement duel t t'
  | replaceStandings {t : Tables} {round : Round} {standings : List StandingRow}
    (mem : round ∈ duel.rounds)
    (belongs : ∀ r ∈ (StandingRecord.ofRound duel.id round).map StandingRow.ofRecord,
      t.hasRound r.room r.round)
    (added : addRows standingKey
      (t.standings.filter fun r =>
        ¬(r.room = .value duel.id ∧ r.round = .value (toColumn round.number)))
      ((StandingRecord.ofRound duel.id round).map .ofRecord) = some standings) :
    Statement duel t { t with standings }
  | insertGuesses {t : Tables} {round : Round} {stored : Nat} {guesses : List GuessRow}
    (mem : round ∈ duel.rounds)
    (belongs : ∀ r ∈ (GuessRecord.ofRound duel.id round stored).map GuessRow.ofRecord,
      t.hasRound r.room r.round)
    (added : addRows guessKey t.guesses ((GuessRecord.ofRound duel.id round stored).map .ofRecord) =
      some guesses) :
    Statement duel t { t with guesses }

section Writes

variable {duel : Duel} {before? : Option Duel} {t t' : Tables}

theorem statement_of_writeRoom (h : t.writeRoom before? duel = some t') : Statement duel t t' := by
  rw [writeRoom] at h
  split at h
  · obtain rfl := Option.some.inj h
    exact .updateRoom
  · obtain ⟨hnew, rfl⟩ := insertRoom_eq_some h
    exact .insertRoom hnew

theorem statement_of_writeRoster (h : t.writeRoster before? duel = some t') :
    t' = t ∨ Statement duel t t' := by
  rw [writeRoster] at h
  split at h
  · obtain ⟨hbelongs, roster, hadd, rfl⟩ := replaceRoster_eq_some h
    exact .inr (.replaceRoster hbelongs hadd)
  · exact .inl (Option.some.inj h).symm

variable {round : Round} {round? : Option Round}

theorem statement_of_writeRoundRow (hround : round ∈ duel.rounds)
    (h : t.writeRoundRow duel.id round? round = some t') : t' = t ∨ Statement duel t t' := by
  cases round? with
  | none =>
      obtain ⟨hroom, hnew, rfl⟩ := insertRound_eq_some h
      exact .inr (.insertRound hround hroom hnew)
  | some before =>
      rw [writeRoundRow] at h
      split at h
      · exact .inr (.updateRound hround h)
      · exact .inl (Option.some.inj h).symm

theorem statement_of_writeStandings (hround : round ∈ duel.rounds)
    (h : t.writeStandings duel.id round? round = some t') : t' = t ∨ Statement duel t t' := by
  rw [writeStandings] at h
  split at h
  · obtain ⟨hbelongs, standings, hadd, rfl⟩ := replaceStandings_eq_some h
    exact .inr (.replaceStandings hround hbelongs hadd)
  · exact .inl (Option.some.inj h).symm

theorem statement_of_insertGuesses (hround : round ∈ duel.rounds) {stored : Nat}
    (h : t.insertGuesses ((GuessRecord.ofRound duel.id round stored).map .ofRecord) = some t') :
    Statement duel t t' := by
  obtain ⟨hbelongs, guesses, hadd, rfl⟩ := insertGuesses_eq_some h
  exact .insertGuesses hround hbelongs hadd

/-- What every statement of writing a duel preserves, writing it preserves. -/
theorem write?_induction {P : Tables → Prop}
    (step : ∀ {t t' : Tables}, Statement duel t t' → P t → P t')
    (h : t.write? before? duel = some t') (ht : P t) : P t' := by
  have hmaybe {t t' : Tables} (hstep : t' = t ∨ Statement duel t t') (ht : P t) : P t' :=
    hstep.elim (· ▸ ht) (step · ht)
  obtain ⟨t₁, hroom, h⟩ := Option.bind_eq_some_iff.1 h
  obtain ⟨t₂, hroster, hrounds⟩ := Option.bind_eq_some_iff.1 h
  have ht₂ : P t₂ :=
    hmaybe (statement_of_writeRoster hroster) (step (statement_of_writeRoom hroom) ht)
  -- The induction is on the rounds that are still to be written.
  suffices hfold : ∀ (rounds : List Round) (t : Tables), (∀ round ∈ rounds, round ∈ duel.rounds) →
      P t → rounds.foldlM (writeRound duel.id before?) t = some t' → P t' from
    hfold _ t₂ (fun _ hround => hround) ht₂ hrounds
  intro rounds
  induction rounds with
  | nil =>
      intro t _ ht h
      obtain rfl := Option.some.inj h
      exact ht
  | cons round rounds ih =>
      intro t hmem ht h
      obtain ⟨t₃, hround, hrest⟩ := Option.bind_eq_some_iff.1 h
      have hin := hmem round List.mem_cons_self
      refine ih t₃ (fun r hr => hmem r (List.mem_cons_of_mem _ hr)) ?_ hrest
      rw [writeRound] at hround
      split at hround
      · obtain rfl := Option.some.inj hround
        exact ht
      · obtain ⟨t₄, hrow, hround⟩ := Option.bind_eq_some_iff.1 hround
        obtain ⟨t₅, hstandings, hguesses⟩ := Option.bind_eq_some_iff.1 hround
        exact step (statement_of_insertGuesses hin hguesses)
          (hmaybe (statement_of_writeStandings hin hstandings)
            (hmaybe (statement_of_writeRoundRow hin hrow) ht))

/-! ### Keys stay in order -/

/-- More rooms, or other rows for the same ones, break nothing. -/
theorem Sound.withRooms (h : t.Sound) {rooms : List RoomRow}
    (hnodup : (rooms.map RoomRow.id).Nodup)
    (hkept : ∀ room, room ∈ t.rooms.map RoomRow.id → room ∈ rooms.map RoomRow.id) :
    { t with rooms }.Sound :=
  { h with
    rooms_nodup := hnodup
    roster_room := fun r hr => hasRoom_iff.2 (hkept _ (hasRoom_iff.1 (h.roster_room r hr)))
    rounds_room := fun r hr => hasRoom_iff.2 (hkept _ (hasRoom_iff.1 (h.rounds_room r hr))) }

/-- More rounds of rooms that exist, or other rows for the same ones, break nothing. -/
theorem Sound.withRounds (h : t.Sound) {rounds : List RoundRow}
    (hnodup : (rounds.map roundKey).Nodup)
    (hkept : ∀ place, place ∈ t.rounds.map roundKey → place ∈ rounds.map roundKey)
    (hroom : ∀ r ∈ rounds, t.hasRoom r.room) : { t with rounds }.Sound :=
  { h with
    rounds_nodup := hnodup
    rounds_room := hroom
    standings_round := fun r hr =>
      hasRound_iff.2 (hkept _ (hasRound_iff.1 (h.standings_round r hr)))
    guesses_round := fun r hr =>
      hasRound_iff.2 (hkept _ (hasRound_iff.1 (h.guesses_round r hr))) }

theorem nodup_map_filter {α κ : Type} {key : α → κ} {rows : List α} (p : α → Bool)
    (h : (rows.map key).Nodup) : ((rows.filter p).map key).Nodup :=
  (List.filter_sublist.map key).nodup h

theorem Sound.updateRoom (h : t.Sound) (row : RoomRow) : (t.updateRoom row).Sound := by
  have hkeys : (t.rooms.map fun r => if r.id = row.id then row else r).map RoomRow.id =
      t.rooms.map RoomRow.id := by
    rw [List.map_map]
    refine List.map_congr_left fun r _ => ?_
    by_cases hr : r.id = row.id <;> simp [hr]
  refine h.withRooms ?_ fun room hroom => ?_
  · rw [hkeys]
    exact h.rooms_nodup
  · rw [hkeys]
    exact hroom

theorem Sound.updateRound (h : t.Sound) {room : RoomId} {row : RoundRow}
    (hupdated : t.updateRound room row = some t') : t'.Sound := by
  rw [Tables.updateRound] at hupdated
  split at hupdated
  · next hmay =>
    obtain rfl := Option.some.inj hupdated
    rcases hmay with hroom | hsound
    · have hkeys : (t.rounds.map fun r =>
            if r.room = .value room ∧ r.number = row.number then row else r).map roundKey =
          t.rounds.map roundKey := by
        rw [List.map_map]
        refine List.map_congr_left fun r _ => ?_
        by_cases hr : r.room = .value room ∧ r.number = row.number <;> simp [hr, roundKey, hroom]
      refine h.withRounds ?_ (fun place hplace => ?_) fun r hr => ?_
      · rw [hkeys]
        exact h.rounds_nodup
      · rw [hkeys]
        exact hplace
      · have hmem : roundKey r ∈ t.rounds.map roundKey := hkeys ▸ List.mem_map_of_mem hr
        obtain ⟨r', hr', hkey⟩ := List.mem_map.1 hmem
        have hroom' : r'.room = r.room := (Prod.mk.inj hkey).1
        exact hroom' ▸ h.rounds_room r' hr'
    · exact hsound
  · cases hupdated

theorem Statement.sound (hstep : Statement duel t t') (h : t.Sound) : t'.Sound := by
  cases hstep with
  | insertRoom hnew =>
      refine h.withRooms ?_ fun room hroom => ?_
      · simpa [List.nodup_append, h.rooms_nodup] using hnew
      · rw [List.map_append]
        exact List.mem_append_left _ hroom
  | updateRoom => exact h.updateRoom _
  | replaceRoster hroom hadd =>
      obtain ⟨rfl, hkeys⟩ := addRows_eq_some hadd
      refine { h with roster_nodup := hkeys (nodup_map_filter _ h.roster_nodup), roster_room := ?_ }
      intro r hr
      rcases List.mem_append.1 hr with hr | hr
      · exact h.roster_room r (List.mem_filter.1 hr).1
      · exact hroom r hr
  | insertRound hmem hroom hnew =>
      refine h.withRounds ?_ (fun place hplace => ?_) fun r hr => ?_
      · simpa [List.nodup_append, h.rounds_nodup] using hnew
      · rw [List.map_append]
        exact List.mem_append_left _ hplace
      · rcases List.mem_append.1 hr with hr | hr
        · exact h.rounds_room r hr
        · rw [List.mem_singleton.1 hr]
          exact hroom
  | updateRound hmem hupdated => exact h.updateRound hupdated
  | replaceStandings hmem hround hadd =>
      obtain ⟨rfl, hkeys⟩ := addRows_eq_some hadd
      refine { h with
        standings_nodup := hkeys (nodup_map_filter _ h.standings_nodup), standings_round := ?_ }
      intro r hr
      rcases List.mem_append.1 hr with hr | hr
      · exact h.standings_round r (List.mem_filter.1 hr).1
      · exact hround r hr
  | insertGuesses hmem hround hadd =>
      obtain ⟨rfl, hkeys⟩ := addRows_eq_some hadd
      refine { h with guesses_nodup := hkeys h.guesses_nodup, guesses_round := ?_ }
      intro r hr
      rcases List.mem_append.1 hr with hr | hr
      · exact h.guesses_round r hr
      · exact hround r hr

/-- A write that succeeds leaves the keys in order. -/
theorem Sound.write? (h : t.Sound) (hwrite : t.write? before? duel = some t') : t'.Sound :=
  write?_induction (P := Sound) Statement.sound hwrite h

end Writes

end Tables

end WordDuel
