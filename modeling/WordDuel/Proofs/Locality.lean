import WordDuel.Proofs.Decoding
/-!
# WordDuel.Proofs.Locality

**Whose rows the writing and reading of a duel are about.** A statement is about a room if it
does the same where the rows of other rooms are missing, and leaves these alone where they are
there (`About`). What is made up of such statements is about the room too; so writing a duel is
(`about_write?`), in whatever state the tables are. To read a duel, no more is looked at than
the rows of its room (`load_only`).
-/

namespace WordDuel

/-! ### Acts that are about one room -/

/-- An act makes no use of what belongs to other rooms than one, and leaves it alone. What
belongs to some rooms can be kept without the rest. -/
structure About {σ : Type} (keep : (Held RoomId → Bool) → σ → σ) (room : RoomId)
    (act : σ → Option σ) : Prop where
  here : ∀ (p : Held RoomId → Bool) (s : σ), p (.value room) →
    act (keep p s) = (act s).map (keep p)
  elsewhere : ∀ (p : Held RoomId → Bool) (s s' : σ), p (.value room) = false →
    act s = some s' → keep p s' = keep p s

namespace About

variable {σ β : Type} {keep : (Held RoomId → Bool) → σ → σ} {room : RoomId}
  {act act' : σ → Option σ}

theorem pure : About keep room some where
  here _ _ _ := rfl
  elsewhere _ _ _ _ h := congrArg _ (Option.some.inj h).symm

theorem bind (h : About keep room act) (h' : About keep room act') :
    About keep room fun s => (act s).bind act' where
  here p s hp := by
    rw [h.here p s hp]
    cases act s with
    | none => rfl
    | some s₁ => exact h'.here p s₁ hp
  elsewhere p s s' hp hboth := by
    obtain ⟨s₁, hfirst, hsecond⟩ := Option.bind_eq_some_iff.1 hboth
    rw [h'.elsewhere p s₁ s' hp hsecond, h.elsewhere p s s₁ hp hfirst]

theorem ite (c : Prop) [Decidable c] (h : About keep room act) (h' : About keep room act') :
    About keep room fun s => if c then act s else act' s := by
  split
  · exact h
  · exact h'

theorem foldlM {step : σ → β → Option σ} {bs : List β}
    (h : ∀ b ∈ bs, About keep room fun s => step s b) :
    About keep room fun s => bs.foldlM step s := by
  induction bs with
  | nil => exact pure
  | cons b bs ih =>
      have hrest := ih fun b' hb' => h b' (List.mem_cons_of_mem _ hb')
      simp only [List.foldlM_cons]
      exact (h b List.mem_cons_self).bind hrest

/-- An act that is refused unless something is there. -/
theorem guard {c : σ → Bool} (hc : ∀ p s, p (.value room) → c (keep p s) = c s)
    (h : About keep room act) : About keep room fun s => if c s then act s else none where
  here p s hp := by
    rw [hc p s hp]
    split
    · exact h.here p s hp
    · rfl
  elsewhere p s s' hp hact := by
    split at hact
    · exact h.elsewhere p s s' hp hact
    · cases hact

end About

namespace Tables

/-! ### Acts on the rows of one table -/

section Rows

variable {α κ : Type} {home : α → Held RoomId} {room : RoomId}

/-- The rows that belong to some rooms. -/
def rowsOf (home : α → Held RoomId) (p : Held RoomId → Bool) (rows : List α) : List α :=
  rows.filter fun r => p (home r)

/-- What is asked for of the room is found where the rows of others are missing. -/
theorem filter_rowsOf {p : Held RoomId → Bool} (hp : p (.value room)) {q : α → Bool}
    (hq : ∀ r, q r → home r = .value room) (rows : List α) :
    (rowsOf home p rows).filter q = rows.filter q := by
  rw [rowsOf, List.filter_filter]
  refine List.filter_congr fun r _ => ?_
  cases hr : q r with
  | false => rfl
  | true => rw [hq r hr, hp, Bool.true_and]

theorem find?_rowsOf {p : Held RoomId → Bool} (hp : p (.value room)) {q : α → Bool}
    (hq : ∀ r, q r → home r = .value room) (rows : List α) :
    (rowsOf home p rows).find? q = rows.find? q := by
  rw [← List.head?_filter, filter_rowsOf hp hq, List.head?_filter]

theorem any_rowsOf {p : Held RoomId → Bool} (hp : p (.value room)) {q : α → Bool}
    (hq : ∀ r, q r → home r = .value room) (rows : List α) :
    (rowsOf home p rows).any q = rows.any q := by
  rw [← List.isSome_find?, find?_rowsOf hp hq, List.isSome_find?]

/-- A row is added whose key names the room. -/
theorem about_addRow [DecidableEq κ] (key : α → κ) {row : α}
    (hkey : ∀ r, key r = key row → home r = home row) (hrow : home row = .value room) :
    About (rowsOf home) room fun rows => addRow key rows row where
  here p rows hp := by
    have hmem : key row ∈ (rowsOf home p rows).map key ↔ key row ∈ rows.map key := by
      simp only [rowsOf, List.mem_map, List.mem_filter]
      constructor
      · rintro ⟨r, ⟨hr, -⟩, hsame⟩
        exact ⟨r, hr, hsame⟩
      · rintro ⟨r, hr, hsame⟩
        refine ⟨r, ⟨hr, ?_⟩, hsame⟩
        rw [hkey r hsame, hrow]
        exact hp
    by_cases hold : key row ∈ rows.map key
    · rw [addRow, addRow, if_pos hold, if_pos (hmem.2 hold)]
      rfl
    · rw [addRow, addRow, if_neg hold, if_neg fun h => hold (hmem.1 h)]
      simp [rowsOf, hrow, hp]
  elsewhere p rows rows' hp hadd := by
    rw [addRow] at hadd
    split at hadd
    · cases hadd
    · rw [← Option.some.inj hadd]
      simp [rowsOf, hrow, hp]

theorem about_addRows [DecidableEq κ] (key : α → κ) {new : List α}
    (hkey : ∀ r r', key r = key r' → home r = home r') (hnew : ∀ r ∈ new, home r = .value room) :
    About (rowsOf home) room fun rows => addRows key rows new :=
  .foldlM fun row hrow => about_addRow key (fun r => hkey r row) (hnew row hrow)

/-- Rows of the room are removed. -/
theorem about_filter {q : α → Bool} (hq : ∀ r, home r ≠ .value room → q r) :
    About (rowsOf home) room fun rows => some (rows.filter q) where
  here p rows _ := by
    simp only [rowsOf, Option.map_some, List.filter_filter, Bool.and_comm]
  elsewhere p rows rows' hp hfilter := by
    rw [← Option.some.inj hfilter, rowsOf, rowsOf, List.filter_filter]
    refine List.filter_congr fun r _ => ?_
    by_cases hr : home r = .value room
    · rw [hr, hp, Bool.false_and]
    · rw [hq r hr, Bool.and_true]

/-- Rows of the room are overwritten. -/
theorem about_map {f : α → α} (hhome : ∀ r, home (f r) = home r)
    (hf : ∀ r, home r ≠ .value room → f r = r) :
    About (rowsOf home) room fun rows => some (rows.map f) where
  here p rows _ := by
    simp only [rowsOf, Option.map_some, List.filter_map, Function.comp_def, hhome]
  elsewhere p rows rows' hp hmap := by
    rw [← Option.some.inj hmap, rowsOf, rowsOf, List.filter_map]
    simp only [Function.comp_def, hhome]
    refine (List.map_congr_left fun r hr => hf r fun hroom => ?_).trans (List.map_id _)
    rw [List.mem_filter, hroom, hp] at hr
    cases hr.2

end Rows

/-! ### Acts on the tables -/

/-- The rows that belong to some rooms. -/
def only (p : Held RoomId → Bool) (t : Tables) : Tables where
  rooms := rowsOf RoomRow.id p t.rooms
  roster := rowsOf RosterRow.room p t.roster
  rounds := rowsOf RoundRow.room p t.rounds
  standings := rowsOf StandingRow.room p t.standings
  guesses := rowsOf GuessRow.room p t.guesses

/-- To keep less after keeping more is to keep less. -/
theorem only_only {p q : Held RoomId → Bool} (hpq : ∀ place, q place → p place) (t : Tables) :
    (t.only p).only q = t.only q := by
  have hrows {α : Type} (home : α → Held RoomId) (rows : List α) :
      rowsOf home q (rowsOf home p rows) = rowsOf home q rows := by
    rw [rowsOf, rowsOf, List.filter_filter, rowsOf]
    refine List.filter_congr fun r _ => ?_
    cases hr : q (home r) with
    | false => rfl
    | true => rw [hpq _ hr, Bool.and_self]
  simp only [only, hrows]

section Statements

variable {room : RoomId}

/-- An act on the rows of a table that can be taken out of the tables and put back. -/
theorem about_table {α : Type} {home : α → Held RoomId} (get : Tables → List α)
    (set : Tables → List α → Tables) (hget : ∀ p t, get (only p t) = rowsOf home p (get t))
    (hset : ∀ p t rows, only p (set t rows) = set (only p t) (rowsOf home p rows))
    (hsame : ∀ t, set t (get t) = t) {act : List α → Option (List α)}
    (h : About (rowsOf home) room act) :
    About only room fun t => (act (get t)).bind fun rows => some (set t rows) where
  here p t hp := by
    rw [hget, h.here p _ hp]
    cases act (get t) with
    | none => rfl
    | some rows => exact congrArg some (hset p t rows).symm
  elsewhere p t t' hp hact := by
    obtain ⟨rows, hrows, hnew⟩ := Option.bind_eq_some_iff.1 hact
    rw [← Option.some.inj hnew, hset, h.elsewhere p _ _ hp hrows, ← hget, hsame]

theorem hasRoom_only {p : Held RoomId → Bool} (hp : p (.value room)) (t : Tables) :
    (t.only p).hasRoom (.value room) = t.hasRoom (.value room) :=
  any_rowsOf hp (fun _ hr => eq_of_beq hr) t.rooms

theorem hasRound_only {p : Held RoomId → Bool} (hp : p (.value room)) (t : Tables)
    (number : Held Int) :
    (t.only p).hasRound (.value room) number = t.hasRound (.value room) number :=
  any_rowsOf hp (fun _ hr => eq_of_beq (Bool.and_eq_true_iff.1 hr).1) t.rounds

theorem all_congr_of_mem {α : Type} {as : List α} {q q' : α → Bool} (h : ∀ a ∈ as, q a = q' a) :
    as.all q = as.all q' := by
  rw [Bool.eq_iff_iff, List.all_eq_true, List.all_eq_true]
  exact ⟨fun hall a ha => h a ha ▸ hall a ha, fun hall a ha => (h a ha).symm ▸ hall a ha⟩

theorem about_insertRoom {row : RoomRow} (hrow : row.id = .value room) :
    About only room fun t => t.insertRoom row :=
  about_table Tables.rooms (fun t rooms => { t with rooms }) (fun _ _ => rfl)
    (fun _ _ _ => rfl) (fun _ => rfl) (about_addRow RoomRow.id (fun _ hsame => hsame) hrow)

theorem about_updateRoom {row : RoomRow} (hrow : row.id = .value room) :
    About only room fun t => some (t.updateRoom row) := by
  refine about_table Tables.rooms (fun t rooms => { t with rooms })
    (fun _ _ => rfl) (fun _ _ _ => rfl) (fun _ => rfl) (about_map ?_ ?_)
  · intro r
    split
    · next hr => exact hr.symm
    · rfl
  · intro r hr
    rw [← hrow] at hr
    exact if_neg hr

theorem about_replaceRoster {new : List RosterRow} (hnew : ∀ r ∈ new, r.room = .value room) :
    About only room fun t => t.replaceRoster room new := by
  refine .guard (c := fun t => new.all fun r => t.hasRoom r.room) (fun p t hp => ?_)
    (about_table Tables.roster (fun t roster => { t with roster })
      (fun _ _ => rfl) (fun _ _ _ => rfl) (fun _ => rfl) (.bind (about_filter ?_)
        (about_addRows rosterKey (fun r r' hkey => (Prod.mk.inj hkey).1) hnew)))
  · refine all_congr_of_mem fun r hr => ?_
    rw [hnew r hr]
    exact hasRoom_only hp t
  · intro r hr
    exact decide_eq_true hr

theorem about_insertRound {row : RoundRow} (hrow : row.room = .value room) :
    About only room fun t => t.insertRound row := by
  refine .guard (c := fun t => t.hasRoom row.room) (fun p t hp => ?_)
    (about_table Tables.rounds (fun t rounds => { t with rounds })
      (fun _ _ => rfl) (fun _ _ _ => rfl) (fun _ => rfl)
      (about_addRow roundKey (fun r hkey => (Prod.mk.inj hkey).1) hrow))
  rw [hrow]
  exact hasRoom_only hp t

/-- A round that stays in its room breaks no key, whatever else is in the tables. -/
theorem about_updateRound {row : RoundRow} (hrow : row.room = .value room) :
    About only room fun t => t.updateRound room row := by
  simp only [updateRound, hrow, true_or, if_true]
  refine about_table Tables.rounds (fun t rounds => { t with rounds })
    (fun _ _ => rfl) (fun _ _ _ => rfl) (fun _ => rfl) (about_map ?_ ?_)
  · intro r
    split
    · next hr => rw [hrow, hr.1]
    · rfl
  · intro r hr
    exact if_neg fun h => hr h.1

theorem about_replaceStandings {number : Int} {new : List StandingRow}
    (hnew : ∀ r ∈ new, r.room = .value room) :
    About only room fun t => t.replaceStandings room number new := by
  refine .guard (c := fun t => new.all fun r => t.hasRound r.room r.round) (fun p t hp => ?_)
    (about_table Tables.standings (fun t standings => { t with standings })
      (fun _ _ => rfl) (fun _ _ _ => rfl) (fun _ => rfl) (.bind (about_filter ?_)
        (about_addRows standingKey (fun r r' hkey => (Prod.mk.inj hkey).1) hnew)))
  · refine all_congr_of_mem fun r hr => ?_
    rw [hnew r hr]
    exact hasRound_only hp t r.round
  · intro r hr
    exact decide_eq_true fun h => hr h.1

theorem about_insertGuesses {new : List GuessRow} (hnew : ∀ r ∈ new, r.room = .value room) :
    About only room fun t => t.insertGuesses new := by
  refine .guard (c := fun t => new.all fun r => t.hasRound r.room r.round) (fun p t hp => ?_)
    (about_table Tables.guesses (fun t guesses => { t with guesses })
      (fun _ _ => rfl) (fun _ _ _ => rfl) (fun _ => rfl)
      (about_addRows guessKey (fun r r' hkey => (Prod.mk.inj hkey).1) hnew))
  refine all_congr_of_mem fun r hr => ?_
  rw [hnew r hr]
  exact hasRound_only hp t r.round

end Statements

end Tables

/-! ### Writing a duel -/

/-- A duel and all its rounds are those of a room. -/
structure Duel.BelongsTo (duel : Duel) (room : RoomId) : Prop where
  id : duel.id = room
  rounds : ∀ round ∈ duel.rounds, round.room = room

namespace Tables

variable {before : Option Duel} {duel : Duel} {round : Round}

theorem about_writeRoom : About only duel.id fun t => t.writeRoom before duel :=
  .ite _ (about_updateRoom rfl) (about_insertRoom rfl)

theorem about_writeRoster : About only duel.id fun t => t.writeRoster before duel := by
  refine .ite _ (about_replaceRoster fun r hr => ?_) .pure
  obtain ⟨record, hrecord, rfl⟩ := List.mem_map.1 hr
  obtain ⟨placed, -, rfl⟩ := List.mem_map.1 hrecord
  rfl

theorem about_writeRoundRow {before : Option Round} {room : RoomId} (hroom : round.room = room) :
    About only room fun t => t.writeRoundRow room before round := by
  have hrow : (RoundRow.ofRecord (.ofRound round)).room = .value room := congrArg Held.value hroom
  cases before with
  | none => exact about_insertRound hrow
  | some b => exact .ite _ (about_updateRound hrow) .pure

theorem about_writeStandings {before : Option Round} {room : RoomId} :
    About only room fun t => t.writeStandings room before round := by
  refine .ite _ (about_replaceStandings fun r hr => ?_) .pure
  obtain ⟨record, hrecord, rfl⟩ := List.mem_map.1 hr
  obtain ⟨entry, -, rfl⟩ := List.mem_map.1 hrecord
  rfl

theorem about_writeRound {room : RoomId} (hroom : round.room = room) :
    About only room fun t => writeRound room before t round := by
  refine .ite _ .pure (.bind (about_writeRoundRow hroom) (.bind about_writeStandings
    (about_insertGuesses fun r hr => ?_)))
  obtain ⟨record, hrecord, rfl⟩ := List.mem_map.1 hr
  obtain ⟨placed, -, rfl⟩ := List.mem_map.1 hrecord
  rfl

/-- Writing a duel is about its room, whatever the tables hold and whatever was loaded. -/
theorem about_write? {room : RoomId} (h : duel.BelongsTo room) :
    About only room fun t => t.write? before duel := by
  obtain ⟨rfl, hrounds⟩ := h
  exact about_writeRoom.bind (about_writeRoster.bind (.foldlM fun round hround =>
    about_writeRound (hrounds round hround)))

/-! ### Reading a duel -/

section Reading

variable {t : Tables} {room : RoomId} {p : Held RoomId → Bool}

theorem select_rowsOf {α : Type} {home : α → Held RoomId} (hp : p (.value room))
    {wanted : α → Bool} (hwanted : ∀ r, wanted r → home r = .value room)
    (order : α → α → Ordering) (rows : List α) :
    select order wanted (rowsOf home p rows) = select order wanted rows := by
  rw [select, filter_rowsOf hp hwanted, select]

theorem readRoom_only (hp : p (.value room)) {row : RoomRow} (hrow : row.id = .value room) :
    (t.only p).readRoom row = t.readRoom row := by
  simp only [readRoom, only, hrow]
  rw [select_rowsOf hp, select_rowsOf hp, select_rowsOf hp, select_rowsOf hp]
  all_goals exact fun _ hr => of_decide_eq_true hr

theorem readRound_only (hp : p (.value room)) {row : RoundRow} (hrow : row.room = .value room) :
    (t.only p).readRound row = t.readRound row := by
  simp only [readRound, only, hrow]
  rw [select_rowsOf hp, select_rowsOf hp]
  all_goals exact fun _ hr => (of_decide_eq_true hr).1

/-- Only the rows of a room are looked at when its duel is read. -/
theorem load_only (hp : p (.value room)) : (t.only p).load room = t.load room := by
  have hfind : (t.only p).rooms.find? (fun r => r.id == .value room) =
      t.rooms.find? fun r => r.id == .value room :=
    find?_rowsOf hp (fun _ hr => eq_of_beq hr) t.rooms
  rw [load, load, hfind]
  cases hrow : t.rooms.find? fun r => r.id == .value room with
  | none => rfl
  | some row =>
      have hid : row.id = .value room := by simpa using List.find?_some hrow
      simp only [readRoom_only hp hid]

theorem loadRound_only (hp : p (.value room)) {number : Nat} :
    (t.only p).loadRound room number = t.loadRound room number := by
  have hfind : (t.only p).rounds.find?
        (fun r => r.room == .value room && r.number == .value (toColumn number)) =
      t.rounds.find? fun r => r.room == .value room && r.number == .value (toColumn number) :=
    find?_rowsOf hp (fun _ hr => eq_of_beq (Bool.and_eq_true_iff.1 hr).1) t.rounds
  rw [loadRound, loadRound, hfind]
  cases hrow : t.rounds.find? fun r =>
      r.room == .value room && r.number == .value (toColumn number) with
  | none => rfl
  | some row =>
      have hroom : row.room = .value room := by
        have hplace := List.find?_some hrow
        simp only [Bool.and_eq_true, beq_iff_eq] at hplace
        exact hplace.1
      simp only [readRound_only hp hroom]

/-! ### What has been read -/

theorem room_of_readRoom {row : RoomRow} (hrow : row.id = .value room) {records : RoomRecords}
    (h : t.readRoom row = .ok records) :
    records.room.id = room ∧ ∀ r ∈ records.rounds, r.room = room := by
  obtain ⟨hrecord, -, hrounds, -⟩ := readRoom_eq_ok_iff.1 h
  constructor
  · obtain ⟨hid, -⟩ := RoomRow.of_read hrecord
    rw [hrow] at hid
    exact (Except.ok.inj hid).symm
  · intro r hr
    obtain ⟨round, hround, hread⟩ := mem_of_mapM hrounds r hr
    have hselected := (List.mem_filter.1 (List.mem_mergeSort.1 hround)).2
    obtain ⟨hroom, -⟩ := RoundRow.of_read hread
    rw [of_decide_eq_true hselected, hrow] at hroom
    exact (Except.ok.inj hroom).symm

theorem belongsTo_of_toDuel {records : RoomRecords} {duel : Duel} (h : records.toDuel = .ok duel)
    (hid : records.room.id = room) (hrounds : ∀ r ∈ records.rounds, r.room = room) :
    duel.BelongsTo room := by
  obtain ⟨hmade, hread⟩ := RoomRecords.toDuel_eq_ok_iff.1 h
  refine ⟨(RoomRecord.of_toRoom hmade).1.trans hid, fun round hround => ?_⟩
  obtain ⟨r, hr, hround⟩ := mem_of_mapM hread round hround
  exact (RoundRecord.of_toRound hround).1.trans (hrounds r hr)

/-- What is read of a room is the room's, and so are its rounds. -/
theorem belongsTo_of_load {duel : Duel} (h : t.load room = .ok (some duel)) :
    duel.BelongsTo room := by
  rw [load] at h
  split at h
  · cases h
  · next row hrow =>
    have hrow : row.id = .value room := by simpa using List.find?_some hrow
    cases hread : t.readRoom row with
    | error e => rw [hread] at h; cases h
    | ok records =>
        obtain ⟨hid, hrounds⟩ := room_of_readRoom hrow hread
        rw [hread] at h
        cases hduel : records.toDuel with
        | error cause => rw [withRead, hduel] at h; cases h
        | ok duel' =>
            rw [withRead, hduel] at h
            obtain rfl := Option.some.inj (Except.ok.inj h)
            exact belongsTo_of_toDuel hduel hid hrounds

end Reading

end Tables

end WordDuel
