import WordDuel.Storage.Tables
/-!
# WordDuel.Proofs.Decoding

**What is made out of rows and records.** Rows are read one by one, and so are the parts of a
duel made out of records: all of them, or the first failure is reported. So what is true of each
row and what comes of it is true of the whole table (`forall_mem_mapM`, `pairwise_mapM`), and a
duel is made out exactly if all its parts are (`RoundRecord.exists_toRound_iff`).
-/

namespace WordDuel

/-! ### Reading and making out one by one -/

theorem bind_eq_ok {α β ε : Type} {x : Except ε α} {f : α → Except ε β} {b : β} :
    x >>= f = .ok b ↔ ∃ a, x = .ok a ∧ f a = .ok b := by
  cases x <;> simp [bind, Except.bind]

instance decidableExistsOk {α ε : Type} (r : Except ε α) : Decidable (∃ a, r = .ok a) :=
  match r with
  | .ok a => isTrue ⟨a, rfl⟩
  | .error _ => isFalse (by rintro ⟨a, h⟩; cases h)

section MapM

variable {α β ε : Type} {f : α → Except ε β} {a : α} {as : List α} {bs : List β}

theorem mapM_cons_eq_ok_iff : (a :: as).mapM f = .ok bs ↔
    ∃ b bs', f a = .ok b ∧ as.mapM f = .ok bs' ∧ bs = b :: bs' := by
  rw [List.mapM_cons]
  constructor
  · intro h
    obtain ⟨b, hb, h⟩ := bind_eq_ok.1 h
    obtain ⟨bs', hbs', h⟩ := bind_eq_ok.1 h
    exact ⟨b, bs', hb, hbs', (Except.ok.inj h).symm⟩
  · rintro ⟨b, bs', hb, hbs', rfl⟩
    exact bind_eq_ok.2 ⟨b, hb, bind_eq_ok.2 ⟨bs', hbs', rfl⟩⟩

theorem mem_of_mapM (h : as.mapM f = .ok bs) : ∀ b ∈ bs, ∃ a ∈ as, f a = .ok b := by
  induction as generalizing bs with
  | nil =>
      obtain rfl := Except.ok.inj h
      simp
  | cons a as ih =>
      obtain ⟨b, bs', hb, hbs', rfl⟩ := mapM_cons_eq_ok_iff.1 h
      intro b' hb'
      rcases List.mem_cons.1 hb' with rfl | hb'
      · exact ⟨a, List.mem_cons_self, hb⟩
      · obtain ⟨a', ha', hf⟩ := ih hbs' b' hb'
        exact ⟨a', List.mem_cons_of_mem _ ha', hf⟩

theorem exists_of_mapM (h : as.mapM f = .ok bs) : ∀ a ∈ as, ∃ b ∈ bs, f a = .ok b := by
  induction as generalizing bs with
  | nil => exact fun _ ha => (List.not_mem_nil ha).elim
  | cons a as ih =>
      obtain ⟨b, bs', hb, hbs', rfl⟩ := mapM_cons_eq_ok_iff.1 h
      intro a' ha'
      rcases List.mem_cons.1 ha' with rfl | ha'
      · exact ⟨b, List.mem_cons_self, hb⟩
      · obtain ⟨b', hb', hf⟩ := ih hbs' a' ha'
        exact ⟨b', List.mem_cons_of_mem _ hb', hf⟩

theorem exists_mapM (h : ∀ a ∈ as, ∃ b, f a = .ok b) : ∃ bs, as.mapM f = .ok bs := by
  induction as with
  | nil => exact ⟨[], rfl⟩
  | cons a as ih =>
      obtain ⟨b, hb⟩ := h a List.mem_cons_self
      obtain ⟨bs, hbs⟩ := ih fun a ha => h a (List.mem_cons_of_mem _ ha)
      exact ⟨b :: bs, mapM_cons_eq_ok_iff.2 ⟨b, bs, hb, hbs, rfl⟩⟩

theorem exists_mapM_iff : (∃ bs, as.mapM f = .ok bs) ↔ ∀ a ∈ as, ∃ b, f a = .ok b := by
  constructor
  · rintro ⟨bs, hbs⟩ a ha
    obtain ⟨b, -, hb⟩ := exists_of_mapM hbs a ha
    exact ⟨b, hb⟩
  · exact exists_mapM

theorem length_of_mapM (h : as.mapM f = .ok bs) : bs.length = as.length := by
  induction as generalizing bs with
  | nil =>
      obtain rfl := Except.ok.inj h
      rfl
  | cons a as ih =>
      obtain ⟨b, bs', -, hbs', rfl⟩ := mapM_cons_eq_ok_iff.1 h
      rw [List.length_cons, List.length_cons, ih hbs']

/-- What is picked out among the results comes of what is picked out among the things they come
of. -/
theorem filter_mapM {p : α → Bool} {q : β → Bool} (h : as.mapM f = .ok bs)
    (hpq : ∀ a ∈ as, ∀ b, f a = .ok b → q b = p a) :
    (as.filter p).mapM f = .ok (bs.filter q) := by
  induction as generalizing bs with
  | nil =>
      obtain rfl := Except.ok.inj h
      rfl
  | cons a as ih =>
      obtain ⟨b, bs', hb, hbs', rfl⟩ := mapM_cons_eq_ok_iff.1 h
      have hq := hpq a List.mem_cons_self b hb
      have hrest := ih hbs' fun a ha => hpq a (List.mem_cons_of_mem _ ha)
      rw [List.filter_cons, List.filter_cons, hq]
      split
      · exact mapM_cons_eq_ok_iff.2 ⟨b, bs'.filter q, hb, hrest, rfl⟩
      · exact hrest

/-- What holds of all results is what holds of all the things they come of. -/
theorem forall_mem_mapM {P : α → Prop} {Q : β → Prop} (h : as.mapM f = .ok bs)
    (hPQ : ∀ a ∈ as, ∀ b, f a = .ok b → (Q b ↔ P a)) : (∀ b ∈ bs, Q b) ↔ ∀ a ∈ as, P a := by
  constructor
  · intro hQ a ha
    obtain ⟨b, hb, hf⟩ := exists_of_mapM h a ha
    exact (hPQ a ha b hf).1 (hQ b hb)
  · intro hP b hb
    obtain ⟨a, ha, hf⟩ := mem_of_mapM h b hb
    exact (hPQ a ha b hf).2 (hP a ha)

/-- Results are related as the things they come of are. -/
theorem pairwise_mapM {R : α → α → Prop} {S : β → β → Prop} (h : as.mapM f = .ok bs)
    (hR : as.Pairwise R)
    (hRS : ∀ a ∈ as, ∀ a' ∈ as, ∀ b b', f a = .ok b → f a' = .ok b' → R a a' → S b b') :
    bs.Pairwise S := by
  induction as generalizing bs with
  | nil =>
      obtain rfl := Except.ok.inj h
      exact .nil
  | cons a as ih =>
      obtain ⟨b, bs', hb, hbs', rfl⟩ := mapM_cons_eq_ok_iff.1 h
      obtain ⟨ha, has⟩ := List.pairwise_cons.1 hR
      refine List.pairwise_cons.2 ⟨fun b' hb' => ?_, ih hbs' has fun a₁ ha₁ a₂ ha₂ =>
        hRS a₁ (List.mem_cons_of_mem _ ha₁) a₂ (List.mem_cons_of_mem _ ha₂)⟩
      obtain ⟨a', ha', hf⟩ := mem_of_mapM hbs' b' hb'
      exact hRS a List.mem_cons_self a' (List.mem_cons_of_mem _ ha') b b' hb hf (ha a' ha')

end MapM

/-! ### The columns of a row that has been read -/

theorem RoomRow.of_read {row : RoomRow} {record : RoomRecord} (h : row.read = .ok record) :
    row.id.read = .ok record.id ∧ record.language = row.language ∧ record.status = row.status := by
  obtain ⟨id, hid, h⟩ := bind_eq_ok.1 h
  obtain ⟨currentRound, -, h⟩ := bind_eq_ok.1 h
  obtain ⟨createdAt, -, h⟩ := bind_eq_ok.1 h
  obtain rfl := Except.ok.inj h
  exact ⟨hid, rfl, rfl⟩

theorem RosterRow.of_read {row : RosterRow} {record : RosterRecord} (h : row.read = .ok record) :
    row.player.read = .ok record.player := by
  obtain ⟨room, -, h⟩ := bind_eq_ok.1 h
  obtain ⟨player, hplayer, h⟩ := bind_eq_ok.1 h
  obtain ⟨position, -, h⟩ := bind_eq_ok.1 h
  obtain ⟨score, -, h⟩ := bind_eq_ok.1 h
  obtain rfl := Except.ok.inj h
  exact hplayer

theorem RoundRow.of_read {row : RoundRow} {record : RoundRecord} (h : row.read = .ok record) :
    row.room.read = .ok record.room ∧ row.number.read = .ok record.number ∧
      record.status = row.status := by
  obtain ⟨room, hroom, h⟩ := bind_eq_ok.1 h
  obtain ⟨number, hnumber, h⟩ := bind_eq_ok.1 h
  obtain ⟨maxAttempts, -, h⟩ := bind_eq_ok.1 h
  obtain ⟨startedAt, -, h⟩ := bind_eq_ok.1 h
  obtain ⟨finishedAt, -, h⟩ := bind_eq_ok.1 h
  obtain rfl := Except.ok.inj h
  exact ⟨hroom, hnumber, rfl⟩

theorem StandingRow.of_read {row : StandingRow} {record : StandingRecord}
    (h : row.read = .ok record) :
    row.round.read = .ok record.round ∧ record.status = row.status := by
  obtain ⟨room, -, h⟩ := bind_eq_ok.1 h
  obtain ⟨round, hround, h⟩ := bind_eq_ok.1 h
  obtain ⟨player, -, h⟩ := bind_eq_ok.1 h
  obtain rfl := Except.ok.inj h
  exact ⟨hround, rfl⟩

theorem GuessRow.of_read {row : GuessRow} {record : GuessRecord} (h : row.read = .ok record) :
    row.round.read = .ok record.round ∧ row.player.read = .ok record.player ∧
      row.attempt.read = .ok record.attempt ∧ record.letters = row.letters := by
  obtain ⟨room, -, h⟩ := bind_eq_ok.1 h
  obtain ⟨round, hround, h⟩ := bind_eq_ok.1 h
  obtain ⟨player, hplayer, h⟩ := bind_eq_ok.1 h
  obtain ⟨attempt, hattempt, h⟩ := bind_eq_ok.1 h
  obtain ⟨sequence, -, h⟩ := bind_eq_ok.1 h
  obtain ⟨createdAt, -, h⟩ := bind_eq_ok.1 h
  obtain rfl := Except.ok.inj h
  exact ⟨hround, hplayer, hattempt, rfl⟩

/-! ### What is made out of records -/

theorem name_of_readName {α : Type} {kind name : String} {nameOf : α → String} {stages : List α}
    {a : α} (h : readName kind nameOf stages name = .ok a) : name = nameOf a := by
  rw [readName] at h
  split at h
  · next a' hfound =>
    obtain rfl := Except.ok.inj h
    have hname := List.find?_some hfound
    exact (beq_iff_eq.1 hname).symm
  · cases h

/-- A stage is made out of its name, and of nothing else. -/
theorem exists_readStage_iff {α : Type} {kind name : String} {nameOf : α → String}
    {stages : List α} (hname : ∀ a, readName kind nameOf stages (nameOf a) = .ok a) :
    (∃ a, readStage (readName kind nameOf stages name) = .ok a) ↔ ∃ a, name = nameOf a := by
  constructor
  · rintro ⟨a, ha⟩
    cases hread : readName kind nameOf stages name with
    | error u => rw [hread] at ha; cases ha
    | ok a' => exact ⟨a', name_of_readName hread⟩
  · rintro ⟨a, rfl⟩
    rw [hname]
    exact ⟨a, rfl⟩

instance (name : String) : Decidable (∃ s : RoomStatus, name = s.name) :=
  decidable_of_iff _ (exists_readStage_iff RoomStatus.ofName_name)

instance (name : String) : Decidable (∃ s : RoundStatus, name = s.name) :=
  decidable_of_iff _ (exists_readStage_iff RoundStatus.ofName_name)

instance (name : String) : Decidable (∃ s : Standing, name = s.name) :=
  decidable_of_iff _ (exists_readStage_iff Standing.ofName_name)

theorem StandingRecord.exists_toStanding_iff {record : StandingRecord} :
    (∃ entry, record.toStanding = .ok entry) ↔ ∃ s : Standing, record.status = s.name := by
  rw [← exists_readStage_iff Standing.ofName_name]
  constructor
  · rintro ⟨entry, hentry⟩
    obtain ⟨s, hs, -⟩ := bind_eq_ok.1 hentry
    exact ⟨s, hs⟩
  · rintro ⟨s, hs⟩
    exact ⟨(record.player, s), bind_eq_ok.2 ⟨s, hs, rfl⟩⟩

theorem GuessRecord.toGuess_eq_ok_iff {record : GuessRecord} {guess : Guess} :
    record.toGuess = .ok guess ↔ ∃ letters, decodeText? record.letters = some letters ∧
      guess = ⟨record.player, record.word, ofColumn record.attempt, letters, record.createdAt⟩ := by
  rw [toGuess]
  split
  · next letters hletters =>
    rw [hletters]
    simp [eq_comm]
  · next hletters =>
    rw [hletters]
    simp

theorem GuessRecord.exists_toGuess_iff {record : GuessRecord} :
    (∃ guess, record.toGuess = .ok guess) ↔
      (decodeText? record.letters : Option (List MarkedLetter)).isSome := by
  simp only [toGuess_eq_ok_iff, Option.isSome_iff_exists]
  constructor
  · rintro ⟨guess, letters, hletters, -⟩
    exact ⟨letters, hletters⟩
  · rintro ⟨letters, hletters⟩
    exact ⟨_, letters, hletters, rfl⟩

/-- The players of a room, their points and its current round are what the records say. -/
theorem RoomRecord.of_toRoom {record : RoomRecord} {roster : List RosterRecord} {room : Room}
    (h : record.toRoom roster = .ok room) :
    room.id = record.id ∧ room.players = roster.map RosterRecord.player ∧
      room.scores = .ofList (roster.map fun r => (r.player, r.score)) ∧
      room.currentRound = record.currentRound.map ofColumn := by
  rw [toRoom] at h
  split at h
  · obtain ⟨status, -, h⟩ := bind_eq_ok.1 h
    obtain rfl := Except.ok.inj h
    exact ⟨rfl, rfl, rfl, rfl⟩
  · cases h

theorem RoomRecord.exists_toRoom_iff {record : RoomRecord} {roster : List RosterRecord} :
    (∃ room, record.toRoom roster = .ok room) ↔
      (Language.ofCode? record.language).isSome ∧ ∃ s : RoomStatus, record.status = s.name := by
  rw [← exists_readStage_iff RoomStatus.ofName_name]
  constructor
  · rintro ⟨room, hroom⟩
    rw [toRoom] at hroom
    split at hroom
    · next language hlanguage =>
      obtain ⟨status, hstatus, -⟩ := bind_eq_ok.1 hroom
      rw [hlanguage]
      exact ⟨rfl, status, hstatus⟩
    · cases hroom
  · rintro ⟨hlanguage, status, hstatus⟩
    obtain ⟨language, hlanguage⟩ := Option.isSome_iff_exists.1 hlanguage
    rw [toRoom, hlanguage]
    exact ⟨_, bind_eq_ok.2 ⟨status, hstatus, rfl⟩⟩

/-- The numbers of a round and its guesses are what the records say. -/
theorem RoundRecord.of_toRound {record : RoundRecord} {standings : List StandingRecord}
    {guesses : List GuessRecord} {round : Round}
    (h : record.toRound standings guesses = .ok round) :
    round.room = record.room ∧ guesses.mapM GuessRecord.toGuess = .ok round.guesses ∧
      round.number = ofColumn record.number ∧ round.maxAttempts = ofColumn record.maxAttempts := by
  obtain ⟨standings', -, h⟩ := bind_eq_ok.1 h
  obtain ⟨guesses', hguesses, h⟩ := bind_eq_ok.1 h
  obtain ⟨status, -, h⟩ := bind_eq_ok.1 h
  obtain rfl := Except.ok.inj h
  exact ⟨rfl, hguesses, rfl, rfl⟩

theorem RoundRecord.exists_toRound_iff {record : RoundRecord} {standings : List StandingRecord}
    {guesses : List GuessRecord} :
    (∃ round, record.toRound standings guesses = .ok round) ↔
      (∃ s : RoundStatus, record.status = s.name) ∧
      (∀ r ∈ standings, ∃ s : Standing, r.status = s.name) ∧
      ∀ r ∈ guesses, (decodeText? r.letters : Option (List MarkedLetter)).isSome := by
  simp only [← exists_readStage_iff RoundStatus.ofName_name,
    ← StandingRecord.exists_toStanding_iff, ← GuessRecord.exists_toGuess_iff, ← exists_mapM_iff]
  constructor
  · rintro ⟨round, hround⟩
    obtain ⟨entries, hentries, hround⟩ := bind_eq_ok.1 hround
    obtain ⟨made, hmade, hround⟩ := bind_eq_ok.1 hround
    obtain ⟨status, hstatus, -⟩ := bind_eq_ok.1 hround
    exact ⟨⟨status, hstatus⟩, ⟨entries, hentries⟩, ⟨made, hmade⟩⟩
  · rintro ⟨⟨status, hstatus⟩, ⟨entries, hentries⟩, ⟨made, hmade⟩⟩
    exact ⟨_, bind_eq_ok.2 ⟨entries, hentries, bind_eq_ok.2 ⟨made, hmade,
      bind_eq_ok.2 ⟨status, hstatus, rfl⟩⟩⟩⟩

namespace Tables

/-- What is read of a room, table by table. -/
theorem readRoom_eq_ok_iff {t : Tables} {row : RoomRow} {records : RoomRecords} :
    t.readRoom row = .ok records ↔ row.read = .ok records.room ∧
      (select rosterOrder (·.room = row.id) t.roster).mapM RosterRow.read = .ok records.roster ∧
      (select roundOrder (·.room = row.id) t.rounds).mapM RoundRow.read = .ok records.rounds ∧
      (select standingOrder (·.room = row.id) t.standings).mapM StandingRow.read =
        .ok records.standings ∧
      (select guessOrder (·.room = row.id) t.guesses).mapM GuessRow.read = .ok records.guesses := by
  constructor
  · intro h
    obtain ⟨record, hrecord, h⟩ := bind_eq_ok.1 h
    obtain ⟨roster, hroster, h⟩ := bind_eq_ok.1 h
    obtain ⟨rounds, hrounds, h⟩ := bind_eq_ok.1 h
    obtain ⟨standings, hstandings, h⟩ := bind_eq_ok.1 h
    obtain ⟨guesses, hguesses, h⟩ := bind_eq_ok.1 h
    obtain rfl := Except.ok.inj h
    exact ⟨hrecord, hroster, hrounds, hstandings, hguesses⟩
  · rintro ⟨hrecord, hroster, hrounds, hstandings, hguesses⟩
    rw [readRoom, hrecord, hroster, hrounds, hstandings, hguesses]
    rfl

theorem RoomRecords.toDuel_eq_ok_iff {records : RoomRecords} {duel : Duel} :
    records.toDuel = .ok duel ↔ records.room.toRoom records.roster = .ok duel.room ∧
      records.rounds.mapM records.toRound = .ok duel.rounds := by
  constructor
  · intro h
    obtain ⟨room, hroom, h⟩ := bind_eq_ok.1 h
    obtain ⟨rounds, hrounds, h⟩ := bind_eq_ok.1 h
    obtain rfl := Except.ok.inj h
    exact ⟨hroom, hrounds⟩
  · rintro ⟨hroom, hrounds⟩
    exact bind_eq_ok.2 ⟨duel.room, hroom, bind_eq_ok.2 ⟨duel.rounds, hrounds, rfl⟩⟩

end Tables

end WordDuel
