import WordDuel.Proofs.Decoding
import WordDuel.Proofs.Reading
import WordDuel.Proofs.Statements
import WordDuel.Proofs.Structure
import WordDuel.Storage.Deposit
/-!
# WordDuel.Proofs.Agreement

**Reading one round and reading the whole room agree.** A room is read by putting the rows of
all its rounds in order and picking out those of each round afterwards; a round is read by
picking out its rows first. Sorting is stable and its order ranks whatever may stand in a
column, so that it does not matter which comes first (`select_filter`). Whatever duels have
been stored, in whatever order and by units of work that had loaded whatever, each row holds a
record that can be made out again (`Recorded`), and a room and a number have one round at most.
-/

namespace WordDuel

namespace Tables

/-! ### Rows with a key -/

/-- One row at most has a key. -/
theorem filter_key_cases {α κ : Type} [DecidableEq κ] {key : α → κ} {rows : List α}
    (hnodup : (rows.map key).Nodup) (k : κ) :
    rows.filter (fun r => key r = k) = [] ∨ ∃ r, rows.filter (fun r => key r = k) = [r] := by
  have hkeys := nodup_map_filter (fun r => decide (key r = k)) hnodup
  have hkey (r : α) (hr : r ∈ rows.filter fun r => key r = k) : key r = k :=
    of_decide_eq_true (List.mem_filter.1 hr).2
  match hfound : rows.filter fun r => key r = k with
  | [] => exact .inl rfl
  | [r] => exact .inr ⟨r, rfl⟩
  | r :: r' :: rest =>
      rw [hfound] at hkeys hkey
      have hsame : key r = key r' := (hkey r (by simp)).trans (hkey r' (by simp)).symm
      exact ((List.nodup_cons.1 hkeys).1 (hsame ▸ List.mem_cons_self)).elim

/-- The row with a key is found wherever it has been put. -/
theorem find?_select {α κ : Type} [DecidableEq κ] (order : α → α → Ordering) [Std.TransCmp order]
    {key : α → κ} {rows : List α} (hnodup : (rows.map key).Nodup) (k : κ) (wanted p : α → Bool)
    (hkey : ∀ r, (wanted r && p r) = decide (key r = k)) :
    (select order wanted rows).find? p = rows.find? fun r => wanted r && p r := by
  rw [← List.head?_filter, select_filter, select, ← List.head?_filter, funext hkey]
  rcases filter_key_cases hnodup k with hnone | ⟨r, hone⟩
  · rw [hnone, List.mergeSort_nil]
  · rw [hone, List.mergeSort_singleton]

/-! ### Rows that hold records -/

/-- Every row holds a record of something that can be made out again. -/
structure Recorded (t : Tables) : Prop where
  rooms : ∀ r ∈ t.rooms, ∃ room, r = .ofRecord (.ofRoom room)
  roster : ∀ r ∈ t.roster, ∃ record, r = .ofRecord record
  rounds : ∀ r ∈ t.rounds, ∃ round, r = .ofRecord (.ofRound round)
  standings : ∀ r ∈ t.standings, ∃ record, (∃ standing : Standing, record.status = standing.name) ∧
    r = .ofRecord record
  guesses : ∀ r ∈ t.guesses, ∃ room number sequence guess,
    r = .ofRecord (.ofGuess room number sequence guess)

theorem recorded_empty : Recorded empty := by
  constructor <;> exact fun _ hr => (List.not_mem_nil hr).elim

/-- Rows that are overwritten are there as they were, or as they have been written. -/
theorem forall_mem_overwritten {α : Type} {P : α → Prop} {rows : List α} {q : α → Prop}
    [DecidablePred q] {row : α} (h : ∀ r ∈ rows, P r) (hrow : P row) :
    ∀ r ∈ rows.map (fun r => if q r then row else r), P r := by
  intro r hr
  obtain ⟨r', hr', rfl⟩ := List.mem_map.1 hr
  split
  · exact hrow
  · exact h r' hr'

theorem Statement.recorded {duel : Duel} {t t' : Tables} (hstep : Statement duel t t')
    (h : t.Recorded) : t'.Recorded := by
  cases hstep with
  | insertRoom hnew =>
      exact { h with rooms := List.forall_mem_append.2 ⟨h.rooms, by simpa using ⟨_, rfl⟩⟩ }
  | updateRoom => exact { h with rooms := forall_mem_overwritten h.rooms ⟨_, rfl⟩ }
  | replaceRoster hroom hadd =>
      obtain ⟨rfl, -⟩ := addRows_eq_some hadd
      refine { h with roster := List.forall_mem_append.2 ⟨fun r hr => ?_, fun r hr => ?_⟩ }
      · exact h.roster r (List.mem_filter.1 hr).1
      · obtain ⟨record, -, rfl⟩ := List.mem_map.1 hr
        exact ⟨record, rfl⟩
  | insertRound hmem hroom hnew =>
      exact { h with rounds := List.forall_mem_append.2 ⟨h.rounds, by simpa using ⟨_, rfl⟩⟩ }
  | updateRound hmem hupdated =>
      rw [Tables.updateRound] at hupdated
      split at hupdated
      · obtain rfl := Option.some.inj hupdated
        exact { h with rounds := forall_mem_overwritten h.rounds ⟨_, rfl⟩ }
      · cases hupdated
  | replaceStandings hmem hround hadd =>
      obtain ⟨rfl, -⟩ := addRows_eq_some hadd
      refine { h with standings := List.forall_mem_append.2 ⟨fun r hr => ?_, fun r hr => ?_⟩ }
      · exact h.standings r (List.mem_filter.1 hr).1
      · obtain ⟨record, hrecord, rfl⟩ := List.mem_map.1 hr
        obtain ⟨entry, -, rfl⟩ := List.mem_map.1 hrecord
        exact ⟨_, ⟨entry.2, rfl⟩, rfl⟩
  | insertGuesses hmem hround hadd =>
      obtain ⟨rfl, -⟩ := addRows_eq_some hadd
      refine { h with guesses := List.forall_mem_append.2 ⟨h.guesses, fun r hr => ?_⟩ }
      obtain ⟨record, hrecord, rfl⟩ := List.mem_map.1 hr
      obtain ⟨entry, -, rfl⟩ := List.mem_map.1 hrecord
      exact ⟨_, _, _, _, rfl⟩

/-! ### Calls that store duels -/

/-- Tables that some calls can leave behind. -/
structure Grown (t : Tables) : Prop where
  sound : t.Sound
  recorded : t.Recorded

theorem Grown.write {t t' : Tables} (h : t.Grown) {before? : Option Duel} {duel : Duel}
    (hwrite : t.write before? duel = .ok t') : t'.Grown := by
  rw [Tables.write] at hwrite
  split at hwrite
  · next t₁ hsome =>
    obtain rfl := Except.ok.inj hwrite
    exact ⟨h.sound.write? hsome, write?_induction (P := Recorded) Statement.recorded hsome h.recorded⟩
  · cases hwrite

theorem Grown.deposit {t : Tables} (h : t.Grown) (call : Deposit) :
    (Store.tables.deposit t call).Grown := by
  have hgetD {r : Result Tables} (hok : ∀ t', r = .ok t' → t'.Grown) : (r.toOption.getD t).Grown := by
    cases r with
    | error failure => exact h
    | ok t' => exact hok t' rfl
  cases call with
  | insert duel => exact hgetD fun t' => h.write
  | commit u duel =>
      refine hgetD fun t' hcommit => ?_
      change t.commit u duel = .ok t' at hcommit
      rw [Tables.commit] at hcommit
      split at hcommit
      · exact h.write hcommit
      · split at hcommit
        · exact h.write hcommit
        · cases hcommit

theorem grown_deposits (calls : List Deposit) : (Store.tables.deposits .empty calls).Grown := by
  suffices hfold : ∀ t : Tables, t.Grown → (Store.tables.deposits t calls).Grown from
    hfold .empty ⟨sound_empty, recorded_empty⟩
  induction calls with
  | nil => exact fun t h => h
  | cons call calls ih => exact fun t h => ih _ (h.deposit call)

end Tables

/-! ### Making out what is recorded -/

/-- A number with 32 bits comes back from a column exactly if it is what the column holds. -/
theorem ofColumn_eq_iff {m n : Nat} (hn : n < 4294967296) :
    ofColumn (toColumn m) = n ↔ toColumn m = toColumn n := by
  constructor
  · rintro rfl
    exact (toColumn_ofColumn_toColumn m).symm
  · intro h
    rw [h, ofColumn_toColumn hn]

-- From here on it only matters that columns give back the numbers that they hold.
attribute [local irreducible] toColumn ofColumn

/-- Things that each come of something come of a list of such things. -/
theorem exists_map_eq {α β : Type} {P : α → Prop} {f : α → β} {bs : List β}
    (h : ∀ b ∈ bs, ∃ a, P a ∧ b = f a) : ∃ as : List α, bs = as.map f ∧ ∀ a ∈ as, P a := by
  induction bs with
  | nil => exact ⟨[], rfl, fun _ ha => (List.not_mem_nil ha).elim⟩
  | cons b bs ih =>
      obtain ⟨a, ha, rfl⟩ := h b List.mem_cons_self
      obtain ⟨as, rfl, has⟩ := ih fun b hb => h b (List.mem_cons_of_mem _ hb)
      exact ⟨a :: as, rfl, List.forall_mem_cons.2 ⟨ha, has⟩⟩

/-- What is found among the results comes of what is found among the things they come of. -/
theorem find?_mapM {α β ε : Type} {f : α → Except ε β} {p : α → Bool} {q : β → Bool} {as : List α}
    {bs : List β} (hbs : as.mapM f = .ok bs) (hpq : ∀ a ∈ as, ∀ b, f a = .ok b → q b = p a) :
    (as.find? p = none ∧ bs.find? q = none) ∨
      ∃ a b, as.find? p = some a ∧ f a = .ok b ∧ bs.find? q = some b := by
  induction as generalizing bs with
  | nil =>
      obtain rfl := Except.ok.inj hbs
      exact .inl ⟨rfl, rfl⟩
  | cons a as ih =>
      obtain ⟨b, rest, hb, hrest, rfl⟩ := mapM_cons_eq_ok_iff.1 hbs
      have hq := hpq a List.mem_cons_self b hb
      by_cases hp : p a
      · refine .inr ⟨a, b, List.find?_cons_of_pos hp, hb, List.find?_cons_of_pos ?_⟩
        rw [hq, hp]
      · rw [List.find?_cons_of_neg hp, List.find?_cons_of_neg (by rw [hq]; exact hp)]
        exact ih hrest fun a ha => hpq a (List.mem_cons_of_mem _ ha)

theorem RoomRecord.exists_toRoom (room : Room) (roster : List RosterRecord) :
    ∃ room', (RoomRecord.ofRoom room).toRoom roster = .ok room' := by
  refine exists_toRoom_iff.2 ⟨?_, room.status, rfl⟩
  rw [ofRoom, Language.ofCode?_code]
  rfl

/-- The record of a round with standings and guesses that are recorded makes out a round of
that number. -/
theorem RoundRecord.exists_toRound (round : Round) {standings : List StandingRecord}
    {guesses : List GuessRecord}
    (hstandings : ∀ r ∈ standings, ∃ standing : Standing, r.status = standing.name)
    (hguesses : ∀ r ∈ guesses, ∃ room number sequence guess, r = .ofGuess room number sequence guess) :
    ∃ round', (RoundRecord.ofRound round).toRound standings guesses = .ok round' ∧
      round'.number = ofColumn (toColumn round.number) := by
  have hletters : ∀ r ∈ guesses, (decodeText? r.letters : Option (List MarkedLetter)).isSome := by
    intro r hr
    obtain ⟨room, number, sequence, guess, rfl⟩ := hguesses r hr
    rw [GuessRecord.ofGuess, decodeText?_encodeText_letters]
    rfl
  have hstage : ∃ s : RoundStatus, (ofRound round).status = s.name := ⟨round.status, rfl⟩
  obtain ⟨round', hround'⟩ := exists_toRound_iff.2 ⟨hstage, hstandings, hletters⟩
  exact ⟨round', hround', (of_toRound hround').2.2.1⟩

namespace Tables

variable {t : Tables} {room : RoomId} {records : RoomRecords}

/-! ### Reading both ways -/

/-- The rows of the rounds of a room, in order, hold the given records, which can be made out. -/
structure Lists (t : Tables) (room : RoomId) (records : RoomRecords) : Prop where
  rounds : select roundOrder (fun r => r.room = .value room) t.rounds =
    records.rounds.map .ofRecord
  standings : select standingOrder (fun r => r.room = .value room) t.standings =
    records.standings.map .ofRecord
  guesses : select guessOrder (fun r => r.room = .value room) t.guesses =
    records.guesses.map .ofRecord
  ofRound : ∀ r ∈ records.rounds, ∃ round, r = .ofRound round
  named : ∀ r ∈ records.standings, ∃ standing : Standing, r.status = standing.name
  ofGuess : ∀ r ∈ records.guesses, ∃ room number sequence guess,
    r = .ofGuess room number sequence guess

theorem readRoom_of_recorded (h : t.Recorded) (room : Room) :
    ∃ records, t.readRoom (.ofRecord (.ofRoom room)) = .ok records ∧
      records.room = .ofRoom room ∧ t.Lists room.id records := by
  obtain ⟨roster, hroster, -⟩ : ∃ roster : List RosterRecord,
      select rosterOrder (fun r => r.room = .value room.id) t.roster = roster.map .ofRecord ∧
        ∀ r ∈ roster, True :=
    exists_map_eq fun r hr => (h.roster r (mem_of_mem_select hr)).imp fun _ hr => ⟨trivial, hr⟩
  obtain ⟨rounds, hrounds, hofRound⟩ : ∃ rounds : List RoundRecord,
      select roundOrder (fun r => r.room = .value room.id) t.rounds = rounds.map .ofRecord ∧
        ∀ r ∈ rounds, ∃ round, r = .ofRound round :=
    exists_map_eq fun r hr => by
      obtain ⟨round, rfl⟩ := h.rounds r (mem_of_mem_select hr)
      exact ⟨_, ⟨round, rfl⟩, rfl⟩
  obtain ⟨standings, hstandings, hnamed⟩ : ∃ standings : List StandingRecord,
      select standingOrder (fun r => r.room = .value room.id) t.standings =
          standings.map .ofRecord ∧
        ∀ r ∈ standings, ∃ standing : Standing, r.status = standing.name :=
    exists_map_eq fun r hr => h.standings r (mem_of_mem_select hr)
  obtain ⟨guesses, hguesses, hofGuess⟩ : ∃ guesses : List GuessRecord,
      select guessOrder (fun r => r.room = .value room.id) t.guesses = guesses.map .ofRecord ∧
        ∀ r ∈ guesses, ∃ room number sequence guess, r = .ofGuess room number sequence guess :=
    exists_map_eq fun r hr => by
      obtain ⟨room, number, sequence, guess, rfl⟩ := h.guesses r (mem_of_mem_select hr)
      exact ⟨_, ⟨room, number, sequence, guess, rfl⟩, rfl⟩
  refine ⟨⟨.ofRoom room, roster, rounds, standings, guesses⟩, ?_, rfl,
    ⟨hrounds, hstandings, hguesses, hofRound, hnamed, hofGuess⟩⟩
  have hid : (RoomRow.ofRecord (.ofRoom room)).id = .value room.id := rfl
  rw [readRoom, RoomRow.read_ofRecord, hid, hroster, hrounds, hstandings, hguesses,
    mapM_read fun r _ => RosterRow.read_ofRecord r, mapM_read fun r _ => RoundRow.read_ofRecord r,
    mapM_read fun r _ => StandingRow.read_ofRecord r, mapM_read fun r _ => GuessRow.read_ofRecord r]
  rfl

/-- Picking rows out by one more property picks out the records that have it. -/
theorem select_and {α β : Type} {order : α → α → Ordering} [Std.TransCmp order]
    {ofRecord : β → α} {wanted p : α → Prop} [DecidablePred wanted] [DecidablePred p]
    {q : β → Bool} {rows : List α} {records : List β}
    (h : select order (fun r => wanted r) rows = records.map ofRecord)
    (hq : ∀ b, decide (p (ofRecord b)) = q b) :
    select order (fun r => wanted r ∧ p r) rows = (records.filter q).map ofRecord := by
  simp only [Bool.decide_and]
  rw [← select_filter, h, List.filter_map]
  exact congrArg (List.map ofRecord) (List.filter_congr fun b _ => hq b)

/-- What is read for a round is what is picked out for it of what is read for its room. -/
theorem readRound_of_lists (h : t.Lists room records) {record : RoundRecord}
    (hroom : record.room = room) :
    t.readRound (.ofRecord record) =
      .ok (record, records.standings.filter (fun r => r.round = record.number),
        records.guesses.filter fun r => r.round = record.number) := by
  subst hroom
  have hstandings := select_and (p := fun r => r.round = .value record.number) h.standings
    (q := fun r => r.round = record.number) fun r => by simp [StandingRow.ofRecord]
  have hguesses := select_and (p := fun r => r.round = .value record.number) h.guesses
    (q := fun r => r.round = record.number) fun r => by simp [GuessRow.ofRecord]
  have hplace : (RoundRow.ofRecord record).room = .value record.room ∧
      (RoundRow.ofRecord record).number = .value record.number := ⟨rfl, rfl⟩
  rw [readRound, RoundRow.read_ofRecord, hplace.1, hplace.2, hstandings, hguesses,
    mapM_read fun r _ => StandingRow.read_ofRecord r, mapM_read fun r _ => GuessRow.read_ofRecord r]
  rfl

/-- A round is found in its table by its number exactly if it is among those of its room. -/
theorem find?_rounds_of_lists (hsound : t.Sound) (h : t.Lists room records) (number : Int) :
    t.rounds.find? (fun r => r.room == .value room && r.number == .value number) =
      (records.rounds.find? fun r => r.number = number).map .ofRecord := by
  have hfound := find?_select roundOrder hsound.rounds_nodup (.value room, .value number)
    (fun r => r.room = .value room) (fun r => r.number = .value number) fun r => by simp [roundKey]
  rw [h.rounds, List.find?_map] at hfound
  refine hfound.symm.trans (congrArg _ (congrArg (List.find? · records.rounds) (funext fun r => ?_)))
  simp [RoundRow.ofRecord]

/-- There are no rounds of a room that is not there. -/
theorem find?_rounds_eq_none (hsound : t.Sound) (number : Int)
    (hroom : t.rooms.find? (fun r => r.id == .value room) = none) :
    t.rounds.find? (fun r => r.room == .value room && r.number == .value number) = none := by
  refine List.find?_eq_none.2 fun r hr hkey => ?_
  rw [Bool.and_eq_true, beq_iff_eq] at hkey
  have hthere := hsound.rounds_room r hr
  rw [hkey.1, hasRoom, List.any_eq_true] at hthere
  obtain ⟨row, hrow, hid⟩ := hthere
  exact List.find?_eq_none.1 hroom row hrow hid

theorem toRound_of_lists (h : t.Lists room records) :
    ∀ record ∈ records.rounds, ∃ round, records.toRound record = .ok round ∧
      ∀ number < 4294967296, (round.number = number ↔ record.number = toColumn number) := by
  intro record hrecord
  obtain ⟨round, rfl⟩ := h.ofRound record hrecord
  obtain ⟨made, hmade, hnumber⟩ := RoundRecord.exists_toRound round
    (fun r hr => h.named r (List.mem_filter.1 hr).1)
    (fun r hr => h.ofGuess r (List.mem_filter.1 hr).1)
  refine ⟨made, hmade, fun number hsmall => ?_⟩
  rw [hnumber]
  exact ofColumn_eq_iff hsmall

/-- A room whose rows hold records that can be made out is read, and its rounds with it. -/
theorem load_of_lists (h : t.Lists room records) {row : RoomRow} (hread : t.readRoom row = .ok records)
    (hrow : t.rooms.find? (fun r => r.id == .value room) = some row) {made : Room}
    (hroom : records.room = .ofRoom made) :
    ∃ duel, t.load room = .ok (some duel) ∧ records.rounds.mapM records.toRound = .ok duel.rounds := by
  obtain ⟨rounds, hrounds⟩ := exists_mapM fun record hrecord =>
    (toRound_of_lists h record hrecord).imp fun _ hround => hround.1
  obtain ⟨made, hmade⟩ := RoomRecord.exists_toRoom made records.roster
  rw [← hroom] at hmade
  refine ⟨⟨made, rounds⟩, ?_, hrounds⟩
  have hduel : records.toDuel = .ok ⟨made, rounds⟩ := by
    rw [RoomRecords.toDuel, hmade, hrounds]
    rfl
  rw [load, hrow]
  dsimp only
  rw [hread, withRead]
  rw [hduel]
  rfl

/-- A round is read as it is made out among the records of its room. -/
theorem loadRound_of_lists (hsound : t.Sound) (h : t.Lists room records) {number : Nat} :
    t.loadRound room number =
      match records.rounds.find? fun r => r.number = toColumn number with
      | none => .ok none
      | some record => ((records.toRound record).map some).mapError .storage := by
  rw [loadRound, find?_rounds_of_lists hsound h]
  cases hfound : records.rounds.find? fun r => r.number = toColumn number with
  | none => rfl
  | some record =>
      have hmem : RoundRow.ofRecord record ∈ select roundOrder (fun r => r.room = .value room)
          t.rounds := by
        rw [h.rounds]
        exact List.mem_map_of_mem (List.mem_of_find?_eq_some hfound)
      have hwanted := (List.mem_filter.1 (List.mem_mergeSort.1 hmem)).2
      have hroom : record.room = room := Held.value.inj (of_decide_eq_true hwanted)
      dsimp only [Option.map_some]
      rw [readRound_of_lists h hroom]
      rfl

/-- From tables that some calls can leave behind, what is read of a round is the round of that
number in what is read of its room. -/
theorem Grown.load_eq_loadRound (h : t.Grown) (room : RoomId) {number : Nat}
    (hnumber : number < 4294967296) :
    ∃ duel?, t.load room = .ok duel? ∧
      t.loadRound room number = .ok (duel?.bind fun duel => duel.round? number) := by
  cases hrow : t.rooms.find? (fun r => r.id == .value room) with
  | none =>
      refine ⟨none, by rw [load, hrow], ?_⟩
      rw [loadRound, find?_rounds_eq_none h.sound _ hrow]
      rfl
  | some row =>
      obtain ⟨held, rfl⟩ := h.recorded.rooms row (List.mem_of_find?_eq_some hrow)
      have hid := List.find?_some hrow
      obtain rfl : held.id = room := Held.value.inj (beq_iff_eq.1 hid)
      obtain ⟨records, hread, hroom, hlists⟩ := readRoom_of_recorded h.recorded held
      obtain ⟨duel, hload, hrounds⟩ := load_of_lists hlists hread hrow hroom
      refine ⟨some duel, hload, ?_⟩
      have hmade := toRound_of_lists hlists
      have hround := find?_mapM (p := fun record => record.number = toColumn number)
        (q := fun round => round.number == number) hrounds fun record hrecord round hround => by
          obtain ⟨round', hround', hnumbers⟩ := hmade record hrecord
          obtain rfl := Except.ok.inj (hround'.symm.trans hround)
          rw [Bool.eq_iff_iff, beq_iff_eq, decide_eq_true_iff]
          exact hnumbers number hnumber
      rw [loadRound_of_lists h.sound hlists]
      rcases hround with ⟨hnone, hnone'⟩ | ⟨record, round, hrecord, hto, hround⟩
      · rw [hnone]
        exact congrArg Except.ok hnone'.symm
      · rw [hrecord]
        dsimp only
        rw [hto]
        exact congrArg Except.ok hround.symm

/-! ### After any calls -/

/-- Whatever duels have been stored one after the other, in new rooms or within units of work
that had loaded anything: every room can be read, and so can the round of every number that has
32 bits. The round is the one that has this number in what is read of the room, with the same
standings and guesses; there is none if there is no such room. -/
theorem rounds_agree (calls : List Deposit) (room : RoomId) (number : Nat)
    (hnumber : number < 4294967296) :
    ∃ duel?, Store.tables.load (Store.tables.deposits .empty calls) room = .ok duel? ∧
      Store.tables.loadRound (Store.tables.deposits .empty calls) room number =
        .ok (duel?.bind fun duel => duel.round? number) :=
  (grown_deposits calls).load_eq_loadRound room hnumber

end Tables

/-! ### Two rounds -/

namespace Sample

/-- A room is stored when both players are in, and again after two rounds. -/
def storedTwice : List Deposit :=
  [.insert (after [.join bob]), .commit ⟨⟨7⟩, true, some (some (after [.join bob]))⟩ (after twoRounds)]

end Sample

/-- The first of two rounds, in which there are three guesses. -/
theorem Tables.rounds_agree_of_stored_twice :
    (Store.tables.deposits .empty Sample.storedTwice).rounds.length = 2 ∧
    (Store.tables.deposits .empty Sample.storedTwice).guesses.map GuessRow.round =
      [.value 1, .value 1, .value 1] ∧
    ∃ duel?, Store.tables.load (Store.tables.deposits .empty Sample.storedTwice) ⟨7⟩ = .ok duel? ∧
      Store.tables.loadRound (Store.tables.deposits .empty Sample.storedTwice) ⟨7⟩ 1 =
        .ok (duel?.bind fun duel => duel.round? 1) :=
  ⟨by decide +kernel, by decide +kernel, rounds_agree Sample.storedTwice ⟨7⟩ 1 (by decide)⟩

end WordDuel
