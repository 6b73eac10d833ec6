import WordDuel.Proofs.Agreement
import WordDuel.Proofs.Locality
import WordDuel.Proofs.Rewriting
/-!
# WordDuel.Proofs.Reloading

**What has been loaded is stored and loaded again as it is.** Rows that somebody has edited
need not be those of any duel: places on a roster may have gaps or be shared, numbers may be
negative, languages and letters may be spelt in other ways. But whatever is made out of them
comes back from the tables (`Duel.Steady`), and it is the keys alone that see to this
(`Tables.steady_of_toDuel`): as no two rows of a roster have the same player, no two rounds the same
number and no two guesses the same player, round and number, the rows into which the duel is
written have keys of their own as well. Players and guesses are numbered anew on the way, and they
come in the order in which they came before if columns have numbers for them all
(`Tables.Numerable`).

A room is made out as a whole or not at all: it is if every one of its rows can be read and
every text in them stands for something (`Tables.Readable`, `Tables.Legible`). Here it matters
that rows belong to others, for a standing would go unnoticed if its round were missing.
-/

namespace WordDuel

/-! ### What stands in a column -/

namespace Held

/-- A column holds a value in the form in which it is stored. -/
def IsValue : Held α → Prop
  | .value _ => True
  | _ => False

/-- A column holds a whole number of 32 bits. -/
def IsNumber : Held Int → Prop
  | .value n => -2147483648 ≤ n ∧ n ≤ 2147483647
  | _ => False

instance (h : Held α) : Decidable h.IsValue :=
  match h with
  | .value _ => inferInstanceAs (Decidable True)
  | .respelt _ _ | .unreadable _ _ => inferInstanceAs (Decidable False)

instance (h : Held Int) : Decidable h.IsNumber :=
  match h with
  | .value _ => inferInstanceAs (Decidable (_ ∧ _))
  | .respelt _ _ | .unreadable _ _ => inferInstanceAs (Decidable False)

theorem IsValue.eq_of_read {h : Held α} {a : α} (hvalue : h.IsValue) (hread : h.read = .ok a) :
    h = .value a := by
  cases h with
  | value b => exact congrArg value (Except.ok.inj hread)
  | respelt cell b => exact hvalue.elim
  | unreadable cell said => exact hvalue.elim

theorem IsNumber.isValue {h : Held Int} (hnumber : h.IsNumber) : h.IsValue := by
  cases h with
  | value n => trivial
  | respelt cell n => exact hnumber
  | unreadable cell said => exact hnumber

/-- A number that has been read can be put back. -/
theorem IsNumber.toColumn_of_read {h : Held Int} {n : Int} (hnumber : h.IsNumber)
    (hread : h.read = .ok n) : toColumn (ofColumn n) = n := by
  rw [hnumber.isValue.eq_of_read hread] at hnumber
  exact toColumn_ofColumn hnumber

end Held

-- It only matters that columns give back the numbers that they hold.
attribute [local irreducible] toColumn ofColumn

namespace Tables

variable {t : Tables} {room : RoomId} {row : RoomRow} {records : RoomRecords} {duel : Duel}

/-! ### The rows that are asked for -/

/-- The records of a room come in order, and are told apart by what their keys have besides the
room. -/
theorem pairwise_read {α β κ : Type} {order : α → α → Ordering} [Std.TransCmp order]
    {read : α → Except DatabaseError β} {rows : List α} (home : α → Held RoomId) (rest : α → κ)
    {place : Held RoomId} {records : List β} {S : β → β → Prop} (hnodup : (rows.map fun r => (home r, rest r)).Nodup)
    (hread : (select order (fun r => home r = place) rows).mapM read = .ok records)
    (hS : ∀ r ∈ rows, ∀ r' ∈ rows, ∀ b b', read r = .ok b → read r' = .ok b' →
      (order r r').isLE → rest r ≠ rest r' → S b b') : records.Pairwise S := by
  have hkeys := nodup_map_filter (fun r => decide (home r = place)) hnodup
  have hsorted := (pairwise_mergeSort order _).and (pairwise_key_mergeSort _ hkeys)
  refine pairwise_mapM hread hsorted ?_
  rintro r hr r' hr' b b' hb hb' ⟨hle, hne⟩
  obtain ⟨hr, hroom⟩ := List.mem_filter.1 (mem_select.1 hr)
  obtain ⟨hr', hroom'⟩ := List.mem_filter.1 (mem_select.1 hr')
  refine hS r hr r' hr' b b' hb hb' hle fun hrest => hne (Prod.ext ?_ hrest)
  exact (of_decide_eq_true hroom).trans (of_decide_eq_true hroom').symm

/-! ### What is loaded comes back -/

/-- The columns by which players, rounds and guesses are told apart hold values of their types,
whatever the other columns hold. -/
structure KeysTyped (t : Tables) : Prop where
  roster : ∀ r ∈ t.roster, r.player.IsValue
  rounds : ∀ r ∈ t.rounds, r.number.IsNumber
  guesses : ∀ r ∈ t.guesses, r.player.IsValue ∧ r.attempt.IsNumber

/-- Columns have numbers for the players on the rosters, and for the guesses of the rounds of each
number. -/
structure Numerable (t : Tables) : Prop where
  roster : t.roster.length ≤ 2147483648
  guesses : ∀ number, (t.guesses.filter fun r => r.round = number).length ≤ 2147483648

/-- A guess belongs to a round, so that its column of the round holds what that of a round does. -/
theorem KeysTyped.isValue_round (hkeys : t.KeysTyped) (hsound : t.Sound) :
    ∀ r ∈ t.guesses, r.round.IsValue := by
  intro r hr
  obtain ⟨round, hround, hplace⟩ := List.mem_map.1 (hasRound_iff.1 (hsound.guesses_round r hr))
  exact (Prod.mk.inj hplace).2 ▸ (hkeys.rounds round hround).isValue

section Steady

variable (hsound : t.Sound) (hkeys : t.KeysTyped) (hread : t.readRoom row = .ok records)

include hkeys hread

theorem toColumn_number_of_read :
    ∀ r ∈ records.rounds, toColumn (ofColumn r.number) = r.number := by
  obtain ⟨-, -, hrounds, -⟩ := readRoom_eq_ok_iff.1 hread
  intro record hrecord
  obtain ⟨r, hr, hrow⟩ := mem_of_mapM hrounds record hrecord
  exact (hkeys.rounds r (mem_of_mem_select hr)).toColumn_of_read (RoundRow.of_read hrow).2.1

theorem toColumn_attempt_of_read :
    ∀ r ∈ records.guesses, toColumn (ofColumn r.attempt) = r.attempt := by
  obtain ⟨-, -, -, -, hguesses⟩ := readRoom_eq_ok_iff.1 hread
  intro record hrecord
  obtain ⟨r, hr, hrow⟩ := mem_of_mapM hguesses record hrecord
  exact (hkeys.guesses r (mem_of_mem_select hr)).2.toColumn_of_read (GuessRow.of_read hrow).2.2.1

include hsound

theorem pairwise_players_of_read : records.roster.Pairwise fun a b => a.player ≠ b.player := by
  obtain ⟨-, hroster, -⟩ := readRoom_eq_ok_iff.1 hread
  refine pairwise_read RosterRow.room RosterRow.player hsound.roster_nodup hroster ?_
  intro r hr r' hr' a b ha hb _ hne heq
  have hplayer := (hkeys.roster r hr).eq_of_read (RosterRow.of_read ha)
  have hplayer' := (hkeys.roster r' hr').eq_of_read (RosterRow.of_read hb)
  rw [hplayer, hplayer', heq] at hne
  exact hne rfl

/-- The rounds come in the strict order of the numbers in their columns. -/
theorem pairwise_numbers_of_read : records.rounds.Pairwise fun a b => a.number < b.number := by
  obtain ⟨-, -, hrounds, -⟩ := readRoom_eq_ok_iff.1 hread
  refine pairwise_read RoundRow.room RoundRow.number hsound.rounds_nodup hrounds ?_
  intro r hr r' hr' a b ha hb hle hne
  have hnumber := (hkeys.rounds r hr).isValue.eq_of_read (RoundRow.of_read ha).2.1
  have hnumber' := (hkeys.rounds r' hr').isValue.eq_of_read (RoundRow.of_read hb).2.1
  rw [roundOrder, hnumber, hnumber'] at hle
  rw [hnumber, hnumber'] at hne
  exact Int.lt_iff_le_and_ne.2 ⟨Int.isLE_compare.1 hle, fun heq => hne (congrArg _ heq)⟩

/-- The guesses of a round are told apart by the player and the number of the attempt. -/
theorem pairwise_guesses_of_read : records.guesses.Pairwise fun a b =>
    a.round = b.round → (a.player, a.attempt) ≠ (b.player, b.attempt) := by
  obtain ⟨-, -, -, -, hguesses⟩ := readRoom_eq_ok_iff.1 hread
  have hkey : ∀ r ∈ t.guesses, ∀ a, r.read = .ok a →
      (r.round, r.player, r.attempt) = (.value a.round, .value a.player, .value a.attempt) := by
    intro r hr a ha
    obtain ⟨hreadRound, hplayer, hattempt, -⟩ := GuessRow.of_read ha
    obtain ⟨hplayerTyped, hattemptTyped⟩ := hkeys.guesses r hr
    rw [(hkeys.isValue_round hsound r hr).eq_of_read hreadRound, hplayerTyped.eq_of_read hplayer,
      hattemptTyped.isValue.eq_of_read hattempt]
  refine pairwise_read GuessRow.room (fun r => (r.round, r.player, r.attempt))
    hsound.guesses_nodup hguesses ?_
  intro r hr r' hr' a b ha hb _ hne hsame heq
  obtain ⟨hplayer, hattempt⟩ := Prod.mk.inj heq
  rw [hkey r hr a ha, hkey r' hr' b hb, hsame, hplayer, hattempt] at hne
  exact hne rfl

theorem fitting_of_toRound {record : RoundRecord} {round : Round}
    (hround : records.toRound record = .ok round) (howned : round.room = room) :
    round.Fitting room := by
  obtain ⟨-, hguesses, hnumber, hlimit⟩ := RoundRecord.of_toRound hround
  refine ⟨howned, hnumber ▸ ofColumn_lt _, hlimit ▸ ofColumn_lt _, fun guess hguess => ?_, ?_⟩
  · obtain ⟨r, -, hr⟩ := mem_of_mapM hguesses guess hguess
    obtain ⟨letters, -, rfl⟩ := GuessRecord.toGuess_eq_ok_iff.1 hr
    exact ofColumn_lt _
  · rw [List.nodup_iff_pairwise_ne, List.pairwise_map]
    -- Attempts that differ in their columns differ as well when they have been read.
    have hall := pairwise_guesses_of_read hsound hkeys hread
    refine pairwise_mapM hguesses (hall.sublist List.filter_sublist) ?_
    intro r hr r' hr' a b ha hb hne heq
    obtain ⟨hr, hhere⟩ := List.mem_filter.1 hr
    obtain ⟨hr', hhere'⟩ := List.mem_filter.1 hr'
    obtain ⟨letters, -, rfl⟩ := GuessRecord.toGuess_eq_ok_iff.1 ha
    obtain ⟨letters', -, rfl⟩ := GuessRecord.toGuess_eq_ok_iff.1 hb
    obtain ⟨hplayer, hattempt⟩ := Prod.mk.inj heq
    refine hne ((of_decide_eq_true hhere).trans (of_decide_eq_true hhere').symm)
      (Prod.ext hplayer ?_)
    rw [← toColumn_attempt_of_read hkeys hread r hr, ← toColumn_attempt_of_read hkeys hread r' hr']
    exact congrArg toColumn hattempt

/-- What has been made out of the rows of a room comes back as it is. -/
theorem steady_of_toDuel (hrow : row.id = .value room) (hduel : records.toDuel = .ok duel) :
    duel.Steady ∧ duel.id = room := by
  obtain ⟨hroom, hrounds⟩ := RoomRecords.toDuel_eq_ok_iff.1 hduel
  obtain ⟨-, hplayers, hscores, hcurrent⟩ := RoomRecord.of_toRoom hroom
  obtain ⟨hid, howned⟩ : duel.BelongsTo room := by
    obtain ⟨hid, hrooms⟩ := room_of_readRoom hrow hread
    exact belongsTo_of_toDuel hduel hid hrooms
  refine ⟨⟨?_, fun player => ?_, fun number hnumber => ?_, ?_, fun round hround => ?_⟩, hid⟩
  · rw [hplayers, List.nodup_iff_pairwise_ne, List.pairwise_map]
    exact pairwise_players_of_read hsound hkeys hread
  · rw [hplayers, hscores, SortedMap.contains_ofList, List.map_map]
    rfl
  · rw [hcurrent] at hnumber
    obtain ⟨n, -, rfl⟩ := Option.map_eq_some_iff.1 hnumber
    exact ofColumn_lt n
  · refine pairwise_mapM hrounds (pairwise_numbers_of_read hsound hkeys hread) ?_
    intro r hr r' hr' a b ha hb hlt
    obtain ⟨-, -, hnumber, -⟩ := RoundRecord.of_toRound ha
    obtain ⟨-, -, hnumber', -⟩ := RoundRecord.of_toRound hb
    rw [hnumber, hnumber', toColumn_number_of_read hkeys hread r hr,
      toColumn_number_of_read hkeys hread r' hr']
    exact hlt
  · obtain ⟨record, -, hrecord⟩ := mem_of_mapM hrounds round hround
    exact hid.symm ▸ fitting_of_toRound hsound hkeys hread hrecord (howned round hround)

/-- There are as many players and guesses in what has been made out as there are rows. -/
theorem numerable_of_toDuel (hrow : row.id = .value room) (hduel : records.toDuel = .ok duel)
    (hfew : (t.ofRoom room).Numerable) : duel.Numerable := by
  obtain ⟨-, hroster, -, -, hguesses⟩ := readRoom_eq_ok_iff.1 hread
  obtain ⟨hroom, hrounds⟩ := RoomRecords.toDuel_eq_ok_iff.1 hduel
  rw [hrow] at hroster hguesses
  constructor
  · obtain ⟨-, hplayers, -⟩ := RoomRecord.of_toRoom hroom
    rw [hplayers, List.length_map, length_of_mapM hroster, select, List.length_mergeSort]
    exact hfew.roster
  · intro round hround
    obtain ⟨record, -, hrecord⟩ := mem_of_mapM hrounds round hround
    obtain ⟨-, hmade, -⟩ := RoundRecord.of_toRound hrecord
    have hrows := filter_mapM (p := fun r => r.round = .value record.number)
      (q := fun r => r.round = record.number) hguesses fun r hr guess hguess => by
        have hvalue := hkeys.isValue_round hsound r (mem_of_mem_select hr)
        simp [hvalue.eq_of_read (GuessRow.of_read hguess).1]
    have hperm := (List.mergeSort_perm (t.guesses.filter fun r => r.room = .value room)
      fun a b => (guessOrder a b).isLE).filter fun r => r.round = .value record.number
    rw [length_of_mapM hmade, length_of_mapM hrows, select, hperm.length_eq]
    exact hfew.guesses (.value record.number)

end Steady

/-- A duel that comes back from the tables can be stored by itself, and is then loaded. -/
theorem load_insert_of_steady (h : duel.Steady) :
    ∃ t', Store.tables.insert .empty duel = .ok t' ∧
      Store.tables.load t' duel.id = .ok (some duel.asRead) := by
  obtain ⟨t', hwrite, hholds, -⟩ := write?_empty_of_fitting h.fitting
  refine ⟨t', write_eq_ok_iff.2 hwrite, load_of_steady hholds fun duel' hduel' => ?_⟩
  obtain rfl := Option.some.inj hduel'
  exact ⟨h, rfl⟩

/-! ### What can be loaded -/

/-- Every row can be read. -/
structure Readable (t : Tables) : Prop where
  rooms : ∀ r ∈ t.rooms, ∃ record, r.read = .ok record
  roster : ∀ r ∈ t.roster, ∃ record, r.read = .ok record
  rounds : ∀ r ∈ t.rounds, ∃ record, r.read = .ok record
  standings : ∀ r ∈ t.standings, ∃ record, r.read = .ok record
  guesses : ∀ r ∈ t.guesses, ∃ record, r.read = .ok record

instance (t : Tables) : Decidable t.Readable :=
  decidable_of_iff
    ((∀ r ∈ t.rooms, ∃ record, r.read = .ok record) ∧
      (∀ r ∈ t.roster, ∃ record, r.read = .ok record) ∧
      (∀ r ∈ t.rounds, ∃ record, r.read = .ok record) ∧
      (∀ r ∈ t.standings, ∃ record, r.read = .ok record) ∧
      ∀ r ∈ t.guesses, ∃ record, r.read = .ok record)
    ⟨fun ⟨a, b, c, d, e⟩ => ⟨a, b, c, d, e⟩, fun ⟨a, b, c, d, e⟩ => ⟨a, b, c, d, e⟩⟩

/-- Every text that stands for something can be made out. -/
structure Legible (t : Tables) : Prop where
  language : ∀ r ∈ t.rooms, (Language.ofCode? r.language).isSome
  rooms : ∀ r ∈ t.rooms, ∃ s : RoomStatus, r.status = s.name
  rounds : ∀ r ∈ t.rounds, ∃ s : RoundStatus, r.status = s.name
  standings : ∀ r ∈ t.standings, ∃ s : Standing, r.status = s.name
  letters : ∀ r ∈ t.guesses, (decodeText? r.letters : Option (List MarkedLetter)).isSome

instance (t : Tables) : Decidable t.Legible :=
  decidable_of_iff
    ((∀ r ∈ t.rooms, (Language.ofCode? r.language).isSome) ∧
      (∀ r ∈ t.rooms, ∃ s : RoomStatus, r.status = s.name) ∧
      (∀ r ∈ t.rounds, ∃ s : RoundStatus, r.status = s.name) ∧
      (∀ r ∈ t.standings, ∃ s : Standing, r.status = s.name) ∧
      ∀ r ∈ t.guesses, (decodeText? r.letters : Option (List MarkedLetter)).isSome)
    ⟨fun ⟨a, b, c, d, e⟩ => ⟨a, b, c, d, e⟩, fun ⟨a, b, c, d, e⟩ => ⟨a, b, c, d, e⟩⟩

/-- Rows belong to rooms, so that there are none where there is no room. -/
theorem ofRoom_eq_empty (hsound : t.Sound) (hfree : ¬ t.hasRoom (.value room)) :
    t.ofRoom room = .empty := by
  have hrooms : t.rooms.filter (fun r => r.id = .value room) = [] :=
    List.filter_eq_nil_iff.2 fun r hr hid =>
      hfree (hasRoom_iff.2 (List.mem_map.2 ⟨r, hr, of_decide_eq_true hid⟩))
  have hhome : ∀ place : Held RoomId × Held Int,
      t.hasRound place.1 place.2 → place.1 ≠ .value room := by
    intro place hplace heq
    obtain ⟨r, hr, hkey⟩ := List.mem_map.1 (hasRound_iff.1 hplace)
    have hroom : r.room = .value room := (Prod.mk.inj hkey).1.trans heq
    exact hfree (hroom ▸ hsound.rounds_room r hr)
  have hroster : t.roster.filter (fun r => r.room = .value room) = [] :=
    List.filter_eq_nil_iff.2 fun r hr hroom =>
      hfree (of_decide_eq_true hroom ▸ hsound.roster_room r hr)
  have hrounds : t.rounds.filter (fun r => r.room = .value room) = [] :=
    List.filter_eq_nil_iff.2 fun r hr hroom =>
      hfree (of_decide_eq_true hroom ▸ hsound.rounds_room r hr)
  have hstandings : t.standings.filter (fun r => r.room = .value room) = [] :=
    List.filter_eq_nil_iff.2 fun r hr hroom =>
      hhome r.place (hsound.standings_round r hr) (of_decide_eq_true hroom)
  have hguesses : t.guesses.filter (fun r => r.room = .value room) = [] :=
    List.filter_eq_nil_iff.2 fun r hr hroom =>
      hhome r.place (hsound.guesses_round r hr) (of_decide_eq_true hroom)
  rw [ofRoom, hrooms, hroster, hrounds, hstandings, hguesses]
  rfl

/-- If there is a room, it has one row, and that is what is read. -/
theorem load_of_hasRoom (hsound : t.Sound) (hroom : t.hasRoom (.value room)) :
    ∃ row, (t.ofRoom room).rooms = [row] ∧
      t.load room = withRead room (t.readRoom row) fun records => records.toDuel.map some := by
  have hfind : t.rooms.find? (fun r => r.id == .value room) =
      (t.rooms.filter fun r => r.id = .value room).head? := List.head?_filter.symm
  rcases filter_key_cases hsound.rooms_nodup (.value room) with hnone | ⟨row, hone⟩
  · obtain ⟨r, hr, hid⟩ := List.mem_map.1 (hasRoom_iff.1 hroom)
    exact (List.filter_eq_nil_iff.1 hnone r hr (decide_eq_true hid)).elim
  · refine ⟨row, hone, ?_⟩
    rw [load, hfind, hone]
    rfl

theorem load_of_not_hasRoom (hroom : ¬ t.hasRoom (.value room)) : t.load room = .ok none := by
  have hfind : t.rooms.find? (fun r => r.id == .value room) = none := by
    refine List.find?_eq_none.2 fun r hr hid => hroom ?_
    exact hasRoom_iff.2 (List.mem_map.2 ⟨r, hr, beq_iff_eq.1 hid⟩)
  rw [load, hfind]

/-- What holds of the records of each round holds of all, if each belongs to a round. -/
theorem forall_mem_rounds {α : Type} {P : α → Prop} {round : α → Int} {all : List α}
    {rounds : List RoundRecord} (h : ∀ a ∈ all, ∃ r ∈ rounds, round a = r.number) :
    (∀ r ∈ rounds, ∀ a ∈ all.filter (fun a => round a = r.number), P a) ↔ ∀ a ∈ all, P a := by
  constructor
  · intro hP a ha
    obtain ⟨r, hr, hround⟩ := h a ha
    exact hP r hr a (List.mem_filter.2 ⟨ha, decide_eq_true hround⟩)
  · exact fun hP r _ a ha => hP a (List.mem_filter.1 ha).1

/-- A duel is made out if every text in the records of its room can be. -/
theorem RoomRecords.exists_toDuel_iff
    (hstandings : ∀ s ∈ records.standings, ∃ r ∈ records.rounds, s.round = r.number)
    (hguesses : ∀ g ∈ records.guesses, ∃ r ∈ records.rounds, g.round = r.number) :
    (∃ duel, records.toDuel = .ok duel) ↔
      ((Language.ofCode? records.room.language).isSome ∧
        ∃ s : RoomStatus, records.room.status = s.name) ∧
      (∀ r ∈ records.rounds, ∃ s : RoundStatus, r.status = s.name) ∧
      (∀ r ∈ records.standings, ∃ s : Standing, r.status = s.name) ∧
      ∀ r ∈ records.guesses, (decodeText? r.letters : Option (List MarkedLetter)).isSome := by
  have hroom : (∃ room, records.room.toRoom records.roster = .ok room) ↔ _ :=
    RoomRecord.exists_toRoom_iff
  rw [← forall_mem_rounds hstandings, ← forall_mem_rounds hguesses, ← hroom]
  constructor
  · rintro ⟨duel, hduel⟩
    obtain ⟨hroom, hrounds⟩ := toDuel_eq_ok_iff.1 hduel
    have hall := fun r hr => RoundRecord.exists_toRound_iff.1 (exists_mapM_iff.1 ⟨_, hrounds⟩ r hr)
    exact ⟨⟨_, hroom⟩, fun r hr => (hall r hr).1, fun r hr => (hall r hr).2.1,
      fun r hr => (hall r hr).2.2⟩
  · rintro ⟨⟨room, hroom⟩, hnamed, hstandings, hletters⟩
    obtain ⟨rounds, hrounds⟩ : ∃ rounds, records.rounds.mapM records.toRound = .ok rounds :=
      exists_mapM fun r hr =>
        RoundRecord.exists_toRound_iff.2 ⟨hnamed r hr, hstandings r hr, hletters r hr⟩
    exact ⟨⟨room, rounds⟩, toDuel_eq_ok_iff.2 ⟨hroom, hrounds⟩⟩

/-- Standings and guesses that have been read are those of rounds that have been read. -/
theorem covered_of_read (hsound : t.Sound) (hread : t.readRoom row = .ok records) :
    (∀ s ∈ records.standings, ∃ r ∈ records.rounds, s.round = r.number) ∧
      ∀ g ∈ records.guesses, ∃ r ∈ records.rounds, g.round = r.number := by
  obtain ⟨-, -, hrounds, hstandings, hguesses⟩ := readRoom_eq_ok_iff.1 hread
  have hround : ∀ (number : Held Int) (n : Int), t.hasRound row.id number → number.read = .ok n →
      ∃ r ∈ records.rounds, n = r.number := by
    intro number n hplace hn
    obtain ⟨r, hr, hkey⟩ := List.mem_map.1 (hasRound_iff.1 hplace)
    obtain ⟨hroom, rfl⟩ := Prod.mk.inj hkey
    obtain ⟨record, hrecord, hr⟩ := exists_of_mapM hrounds r
      (mem_select.2 (List.mem_filter.2 ⟨hr, decide_eq_true hroom⟩))
    exact ⟨record, hrecord, Except.ok.inj (hn.symm.trans (RoundRow.of_read hr).2.1)⟩
  constructor
  · intro record hrecord
    obtain ⟨r, hr, hread⟩ := mem_of_mapM hstandings record hrecord
    obtain ⟨hr, hroom⟩ := List.mem_filter.1 (mem_select.1 hr)
    exact hround _ _ (of_decide_eq_true hroom ▸ hsound.standings_round r hr)
      (StandingRow.of_read hread).1
  · intro record hrecord
    obtain ⟨r, hr, hread⟩ := mem_of_mapM hguesses record hrecord
    obtain ⟨hr, hroom⟩ := List.mem_filter.1 (mem_select.1 hr)
    exact hround _ _ (of_decide_eq_true hroom ▸ hsound.guesses_round r hr)
      (GuessRow.of_read hread).1

section Room

variable (hrow : (t.ofRoom room).rooms = [row])

include hrow

theorem mem_ofRoom : row ∈ (t.ofRoom room).rooms := by
  rw [hrow]
  exact List.mem_singleton.2 rfl

theorem id_of_ofRoom : row.id = .value room :=
  of_decide_eq_true (List.mem_filter.1 (mem_ofRoom hrow)).2

/-- The records of a room are read if all its rows are. -/
theorem exists_readRoom_iff :
    (∃ records, t.readRoom row = .ok records) ↔ (t.ofRoom room).Readable := by
  have hid := id_of_ofRoom hrow
  constructor
  · rintro ⟨records, hread⟩
    obtain ⟨hroom, hroster, hrounds, hstandings, hguesses⟩ := readRoom_eq_ok_iff.1 hread
    rw [hid] at hroster hrounds hstandings hguesses
    refine ⟨?_, fun r hr => ?_, fun r hr => ?_, fun r hr => ?_, fun r hr => ?_⟩
    · rw [hrow]
      exact List.forall_mem_singleton.2 ⟨_, hroom⟩
    · exact exists_mapM_iff.1 ⟨_, hroster⟩ r (mem_select.2 hr)
    · exact exists_mapM_iff.1 ⟨_, hrounds⟩ r (mem_select.2 hr)
    · exact exists_mapM_iff.1 ⟨_, hstandings⟩ r (mem_select.2 hr)
    · exact exists_mapM_iff.1 ⟨_, hguesses⟩ r (mem_select.2 hr)
  · intro h
    obtain ⟨made, hroom⟩ := h.rooms row (mem_ofRoom hrow)
    obtain ⟨roster, hroster⟩ := exists_mapM fun r hr => h.roster r (mem_select.1 hr)
    obtain ⟨rounds, hrounds⟩ := exists_mapM fun r hr => h.rounds r (mem_select.1 hr)
    obtain ⟨standings, hstandings⟩ := exists_mapM fun r hr => h.standings r (mem_select.1 hr)
    obtain ⟨guesses, hguesses⟩ := exists_mapM fun r hr => h.guesses r (mem_select.1 hr)
    refine ⟨⟨made, roster, rounds, standings, guesses⟩, readRoom_eq_ok_iff.2 ?_⟩
    rw [hid]
    exact ⟨hroom, hroster, hrounds, hstandings, hguesses⟩

/-- What has been read of a room can be made out if the texts in its rows can. -/
theorem exists_toDuel_iff (hsound : t.Sound) (hread : t.readRoom row = .ok records) :
    (∃ duel, records.toDuel = .ok duel) ↔ (t.ofRoom room).Legible := by
  obtain ⟨hstandingRound, hguessRound⟩ := covered_of_read hsound hread
  obtain ⟨hroom, -, hrounds, hstandings, hguesses⟩ := readRoom_eq_ok_iff.1 hread
  rw [id_of_ofRoom hrow] at hrounds hstandings hguesses
  obtain ⟨-, hlanguage, hstatus⟩ := RoomRow.of_read hroom
  have hnamed := forall_mem_mapM (P := fun r => ∃ s : RoundStatus, r.status = s.name)
    (Q := fun r => ∃ s : RoundStatus, r.status = s.name) hrounds fun r _ record hr => by
      rw [(RoundRow.of_read hr).2.2]
  have hstanding := forall_mem_mapM (P := fun r => ∃ s : Standing, r.status = s.name)
    (Q := fun r => ∃ s : Standing, r.status = s.name) hstandings fun r _ record hr => by
      rw [(StandingRow.of_read hr).2]
  have hletters := forall_mem_mapM
    (P := fun r => (decodeText? r.letters : Option (List MarkedLetter)).isSome)
    (Q := fun r => (decodeText? r.letters : Option (List MarkedLetter)).isSome)
    hguesses fun r _ record hr => by rw [(GuessRow.of_read hr).2.2.2]
  rw [RoomRecords.exists_toDuel_iff hstandingRound hguessRound, hlanguage, hstatus, hnamed,
    hstanding, hletters]
  constructor
  · rintro ⟨⟨hlanguage, hstatus⟩, hnamed, hstanding, hletters⟩
    refine ⟨?_, ?_, fun r hr => hnamed r (mem_select.2 hr),
      fun r hr => hstanding r (mem_select.2 hr), fun r hr => hletters r (mem_select.2 hr)⟩
    · rw [hrow]
      exact List.forall_mem_singleton.2 hlanguage
    · rw [hrow]
      exact List.forall_mem_singleton.2 hstatus
  · intro h
    exact ⟨⟨h.language row (mem_ofRoom hrow), h.rooms row (mem_ofRoom hrow)⟩,
      fun r hr => h.rounds r (mem_select.1 hr), fun r hr => h.standings r (mem_select.1 hr),
      fun r hr => h.letters r (mem_select.1 hr)⟩

end Room

/-! ### Loading, storing, loading -/

theorem withRead_eq_ok_iff {α β : Type} {r : Except DatabaseError α}
    {f : α → Except StorageCause β} {b : β} :
    withRead room r f = .ok b ↔ ∃ a, r = .ok a ∧ f a = .ok b := by
  constructor
  · intro h
    cases r with
    | error e => cases h
    | ok a =>
        rw [withRead] at h
        cases hf : f a with
        | error cause =>
            rw [hf] at h
            cases h
        | ok b' =>
            rw [hf] at h
            exact ⟨a, rfl, hf.trans (congrArg _ (Except.ok.inj h))⟩
  · rintro ⟨a, rfl, hf⟩
    rw [withRead, hf]
    rfl

theorem map_some_eq_ok_iff {ε α : Type} {r : Except ε α} {a? : Option α} :
    r.map some = .ok a? ↔ ∃ a, r = .ok a ∧ a? = some a := by
  cases r <;> simp [Except.map, eq_comm]

section Load

variable (hsound : t.Sound)

include hsound

/-- What is loaded is made out of the records that are read of the row of the room. -/
theorem load_eq_some (h : t.load room = .ok (some duel)) :
    ∃ row records, (t.ofRoom room).rooms = [row] ∧ t.readRoom row = .ok records ∧
      records.toDuel = .ok duel := by
  by_cases hroom : t.hasRoom (.value room)
  · obtain ⟨row, hrow, hload⟩ := load_of_hasRoom hsound hroom
    obtain ⟨records, hread, hmade⟩ := withRead_eq_ok_iff.1 (hload.symm.trans h)
    obtain ⟨duel', hduel, hsome⟩ := map_some_eq_ok_iff.1 hmade
    obtain rfl := Option.some.inj hsome
    exact ⟨row, records, hrow, hread, hduel⟩
  · rw [load_of_not_hasRoom hroom] at h
    cases h

/-- A room that is loaded can be stored, and comes back as it is if its rows can be numbered. -/
theorem load_insert_of_load (hkeys : t.KeysTyped) (h : t.load room = .ok (some duel)) :
    ∃ t', Store.tables.insert .empty duel = .ok t' ∧
      ((t.ofRoom room).Numerable → Store.tables.load t' room = .ok (some duel)) := by
  obtain ⟨row, records, hrow, hread, hduel⟩ := load_eq_some hsound h
  have hid := id_of_ofRoom hrow
  obtain ⟨hsteady, rfl⟩ := steady_of_toDuel hsound hkeys hread hid hduel
  obtain ⟨t', hinsert, hload⟩ := load_insert_of_steady hsteady
  refine ⟨t', hinsert, fun hfew => ?_⟩
  have hnumerable := numerable_of_toDuel hsound hkeys hread hid hduel hfew
  rw [hload, Duel.asRead_eq hnumerable]

theorem load_eq_none_iff : t.load room = .ok none ↔ ¬ t.hasRoom (.value room) := by
  refine ⟨fun h hroom => ?_, load_of_not_hasRoom⟩
  obtain ⟨row, -, hload⟩ := load_of_hasRoom hsound hroom
  obtain ⟨records, -, hmade⟩ := withRead_eq_ok_iff.1 (hload.symm.trans h)
  obtain ⟨duel, -, hsome⟩ := map_some_eq_ok_iff.1 hmade
  cases hsome

/-- A room is loaded if all its rows can be read and made out, and only then. -/
theorem exists_load_iff : (∃ duel, t.load room = .ok (some duel)) ↔
    t.hasRoom (.value room) ∧ (t.ofRoom room).Readable ∧ (t.ofRoom room).Legible := by
  constructor
  · rintro ⟨duel, h⟩
    have hroom : t.hasRoom (.value room) := Decidable.byContradiction fun hroom => by
      rw [load_of_not_hasRoom hroom] at h
      cases h
    obtain ⟨row, records, hrow, hread, hduel⟩ := load_eq_some hsound h
    exact ⟨hroom, (exists_readRoom_iff hrow).1 ⟨records, hread⟩,
      (exists_toDuel_iff hrow hsound hread).1 ⟨duel, hduel⟩⟩
  · rintro ⟨hroom, hreadable, hlegible⟩
    obtain ⟨row, hrow, hload⟩ := load_of_hasRoom hsound hroom
    obtain ⟨records, hread⟩ := (exists_readRoom_iff hrow).2 hreadable
    obtain ⟨duel, hduel⟩ := (exists_toDuel_iff hrow hsound hread).2 hlegible
    refine ⟨duel, hload.trans (withRead_eq_ok_iff.2 ⟨records, hread, ?_⟩)⟩
    exact map_some_eq_ok_iff.2 ⟨duel, hduel, rfl⟩

/-- Where something cannot be made out in rows that can be read, that is what is reported. -/
theorem load_of_not_legible (hreadable : (t.ofRoom room).Readable)
    (hlegible : ¬ (t.ofRoom room).Legible) :
    ∃ cause, t.load room = .error (.storage cause) := by
  have hroom : t.hasRoom (.value room) := Decidable.byContradiction fun hroom => hlegible <| by
    rw [ofRoom_eq_empty hsound hroom]
    constructor <;> exact fun _ hr => (List.not_mem_nil hr).elim
  obtain ⟨row, hrow, hload⟩ := load_of_hasRoom hsound hroom
  obtain ⟨records, hread⟩ := (exists_readRoom_iff hrow).2 hreadable
  cases hduel : records.toDuel with
  | ok duel => exact (hlegible ((exists_toDuel_iff hrow hsound hread).1 ⟨duel, hduel⟩)).elim
  | error cause =>
      refine ⟨cause, ?_⟩
      rw [hload, hread, withRead, hduel]
      rfl

end Load

/-- Let the tables hold any rows, as long as the keys are in order and the columns of the keys
hold values of their types. Whatever is loaded of a room can be stored in empty tables, and the
same is loaded from there, as long as columns have numbers for the players on its roster and the
guesses of each of its rounds. A room that is there is loaded exactly if every row of it can be read
and every text in its rows that stands for something can be made out. Where the rows can be read,
a text that cannot be made out is reported as a storage failure. -/
theorem reload_spec (hsound : t.Sound) (hkeys : t.KeysTyped) (room : RoomId) :
    (∀ duel, Store.tables.load t room = .ok (some duel) →
      ∃ t', Store.tables.insert .empty duel = .ok t' ∧
        ((t.ofRoom room).Numerable → Store.tables.load t' room = .ok (some duel))) ∧
    (Store.tables.load t room = .ok none ↔ ¬ t.hasRoom (.value room)) ∧
    ((∃ duel, Store.tables.load t room = .ok (some duel)) ↔
      t.hasRoom (.value room) ∧ (t.ofRoom room).Readable ∧ (t.ofRoom room).Legible) ∧
    ((t.ofRoom room).Readable → ¬ (t.ofRoom room).Legible →
      ∃ cause, Store.tables.load t room = .error (.storage cause)) :=
  ⟨fun _ => load_insert_of_load hsound hkeys, load_eq_none_iff hsound, exists_load_iff hsound,
    load_of_not_legible hsound⟩

end Tables

/-! ### Rows that no duel has left behind -/

namespace Sample

/-- Two rooms that somebody has edited. In the first one a round has a negative number, players
share a place on the roster and guesses a place in their round, and the language and the letters
are spelt in a way of their own. The second one is in no language. -/
def edited : Tables where
  rooms :=
    [⟨.value ⟨7⟩, " it ", "IN_PROGRESS", .value (some (-2)), .value ⟨0, 0⟩⟩,
     ⟨.value ⟨8⟩, "Latin", "CLOSED", .value none, .value ⟨0, 0⟩⟩]
  roster :=
    [⟨.value ⟨7⟩, .value bob, .value 5, .value (-1)⟩,
     ⟨.value ⟨7⟩, .value alice, .value 5, .value 3⟩]
  rounds :=
    [⟨.value ⟨7⟩, .value 3, "CRANE", .value 2, "PLAYING", .value ⟨0, 0⟩, .value none⟩,
     ⟨.value ⟨7⟩, .value (-2), "MOIST", .value (-1), "ENDED", .value ⟨0, 0⟩, .value none⟩]
  standings := [⟨.value ⟨7⟩, .value (-2), .value bob, "WON"⟩]
  guesses :=
    [⟨.value ⟨7⟩, .value (-2), .value bob, .value (-9), .value 4, "MOIST",
       "[ [\"M\", \"CORRECT\"] ]", .value ⟨0, 0⟩⟩,
     ⟨.value ⟨7⟩, .value (-2), .value alice, .value 1, .value 4, "", "[]", .value ⟨0, 0⟩⟩]

end Sample

/-- The first room is loaded and comes back, the second one is not. -/
theorem Tables.reload_spec_of_edited :
    (∃ duel t', Store.tables.load Sample.edited ⟨7⟩ = .ok (some duel) ∧
      Store.tables.insert .empty duel = .ok t' ∧
      Store.tables.load t' ⟨7⟩ = .ok (some duel)) ∧
    ∃ cause, Store.tables.load Sample.edited ⟨8⟩ = .error (.storage cause) := by
  have hsound : Sample.edited.Sound := by decide +kernel
  have hkeys : Sample.edited.KeysTyped :=
    ⟨by decide +kernel, by decide +kernel, by decide +kernel⟩
  obtain ⟨hback, -, hloaded, -⟩ := reload_spec hsound hkeys ⟨7⟩
  obtain ⟨-, -, -, hfailed⟩ := reload_spec hsound hkeys ⟨8⟩
  obtain ⟨duel, hload⟩ := hloaded.2 (by decide +kernel)
  have hfew : (Sample.edited.ofRoom ⟨7⟩).Numerable := by
    refine ⟨by decide +kernel, fun number => ?_⟩
    exact Nat.le_trans (List.length_filter_le _ _) (by decide +kernel)
  obtain ⟨t', hinsert, hreload⟩ := hback duel hload
  exact ⟨⟨duel, t', hload, hinsert, hreload hfew⟩, hfailed (by decide +kernel) (by decide +kernel)⟩

end WordDuel
