import WordDuel.Proofs.Rulings
/-!
# WordDuel.Proofs.Openings

**Asking for a round that is being played, on any duel.** Nothing is assumed of the duel: the
current round may be absent or dangling, numbers may repeat or leave gaps, the roster may be of
any length. The next number is larger than every other, so the first round of that number is
the one that has just been opened, and everything that can fail does so before the duel is
touched (`ensureActiveRound_spec`).
-/

namespace WordDuel

/-- No round is being played: there is no current round, or it has ended. -/
def Duel.Idle (duel : Duel) : Prop :=
  ∀ round, duel.currentRound? = some round → round.isFinished = true

theorem Duel.idle_iff {duel : Duel} :
    duel.Idle ↔ duel.currentRound?.all Round.isFinished = true := by
  cases hcurrent : duel.currentRound? <;> simp [Idle, hcurrent]

namespace Referee

variable (referee : Referee) {duel : Duel} {round : Round} {failure : Failure}

/-! ### Drawing a target -/

/-- A word that may become a target in a language: an answer as long as the rules ask for. -/
def MayDraw (words : WordSet) (word : String) : Prop :=
  words.has word = true ∧ word.length = referee.rules.wordLength

variable {referee}

theorem mem_eligible_iff {words : WordSet} {word : String} :
    word ∈ referee.eligible words ↔ referee.MayDraw words word := by
  rw [eligible, List.mem_filter, MayDraw, WordSet.has_iff, beq_iff_eq]

/-- Whatever the draw, the target is one of the words that may be drawn. -/
theorem mayDraw_of_pickTarget {language : Language} {target : String}
    (h : referee.pickTarget language = .ok target) :
    ∃ words, referee.dictionary.answers language = .ok words ∧ referee.MayDraw words target := by
  rw [pickTarget] at h
  split at h
  · cases h
  · next words hwords =>
    split at h
    · next word hword =>
      obtain rfl := Except.ok.inj h
      exact ⟨words, hwords, mem_eligible_iff.1 (List.mem_of_getElem? hword)⟩
    · cases h

/-- The draw hits no word only if there is none. -/
theorem draw_eq_none_iff {words : WordSet} :
    (referee.eligible words)[referee.draw % (referee.eligible words).length]? = none ↔
      ∀ word, ¬ referee.MayDraw words word := by
  simp only [← mem_eligible_iff, ← List.eq_nil_iff_forall_not_mem]
  constructor
  · intro h
    cases hwords : referee.eligible words with
    | nil => rfl
    | cons word rest =>
        have hpos : 0 < (referee.eligible words).length := by simp [hwords]
        have hlt := Nat.mod_lt referee.draw hpos
        exact absurd hlt (Nat.not_lt.2 (List.getElem?_eq_none_iff.1 h))
  · intro h
    rw [h, List.getElem?_nil]

/-- A draw fails because the dictionary does, or because there is no word to be drawn. -/
theorem pickTarget_eq_error_iff {language : Language} :
    referee.pickTarget language = .error failure ↔
      referee.dictionary.answers language = .error failure ∨
        (∃ words, referee.dictionary.answers language = .ok words ∧
          ∀ word, ¬ referee.MayDraw words word) ∧
        failure = .refused (.dictionaryEmpty language) := by
  rw [pickTarget]
  cases hanswers : referee.dictionary.answers language with
  | error failure' => simp
  | ok words =>
      have hnone : (referee.eligible words)[referee.draw % (referee.eligible words).length]? =
          none ↔ ∀ word, ¬ referee.MayDraw words word := draw_eq_none_iff
      cases hword : (referee.eligible words)[referee.draw % (referee.eligible words).length]? with
      | some word =>
          have hsome : ¬ ∀ word, ¬ referee.MayDraw words word := mt hnone.2 (by simp [hword])
          simp only [hword]
          constructor
          · intro h
            cases h
          · rintro (h | ⟨⟨words', hwords, hnothing⟩, -⟩)
            · cases h
            · obtain rfl := Except.ok.inj hwords
              exact absurd hnothing hsome
      | none => simp [hword, hnone.1 hword, eq_comm]

/-! ### What stands in the way -/

variable (referee)

/-- Why no round can be opened in a duel: there are not two players, the dictionary fails, or no
answer is as long as the rules ask for. -/
inductive Obstacle (duel : Duel) : Failure → Prop
  | roster (h : duel.room.players.length ≠ 2) : Obstacle duel (.refused (.roomNotReady duel.id))
  | dictionary {failure : Failure} (hready : duel.room.players.length = 2)
      (h : referee.dictionary.answers duel.room.language = .error failure) : Obstacle duel failure
  | words {words : WordSet} (hready : duel.room.players.length = 2)
      (hwords : referee.dictionary.answers duel.room.language = .ok words)
      (h : ∀ word, ¬ referee.MayDraw words word) :
      Obstacle duel (.refused (.dictionaryEmpty duel.room.language))

variable {referee}

theorem opening?_eq_error_iff :
    referee.opening? duel = .error failure ↔ referee.Obstacle duel failure := by
  by_cases hready : duel.room.players.length = maxPlayers
  · have hopening : referee.opening? duel = .error failure ↔
        referee.pickTarget duel.room.language = .error failure := by
      rw [opening?, if_neg (not_not_intro hready)]
      cases referee.pickTarget duel.room.language <;> simp [Except.map]
    rw [hopening, pickTarget_eq_error_iff]
    constructor
    · rintro (hdictionary | ⟨⟨words, hwords, hnone⟩, rfl⟩)
      · exact .dictionary hready hdictionary
      · exact .words hready hwords hnone
    · rintro (hroster | ⟨-, hdictionary⟩ | ⟨-, hwords, hnone⟩)
      · exact absurd hready hroster
      · exact .inl hdictionary
      · exact .inr ⟨⟨_, hwords, hnone⟩, rfl⟩
  · rw [opening?, if_pos hready, Except.error.injEq]
    constructor
    · rintro rfl
      exact .roster hready
    · rintro (- | ⟨hready', -⟩ | ⟨hready', -, -⟩)
      · rfl
      · exact absurd hready' hready
      · exact absurd hready' hready

/-- Asking for a round that is being played fails exactly if none is and none can be opened. -/
theorem active?_eq_error_iff :
    referee.active? duel = .error failure ↔ duel.Idle ∧ referee.Obstacle duel failure := by
  rw [← opening?_eq_error_iff, Duel.idle_iff]
  by_cases hidle : duel.currentRound?.all Round.isFinished = true
  · rw [Duel.active?_of_ended hidle]
    cases referee.opening? duel <;> simp [Except.map, hidle]
  · obtain ⟨round, hcurrent, hplaying⟩ : ∃ round, duel.currentRound? = some round ∧
        round.isFinished = false := by
      cases hcurrent : duel.currentRound? <;> simp_all
    simp [active?, hcurrent, hplaying, Option.filter]

/-! ### The round that is opened -/

variable (referee)

/-- How a draft differs from the one before after a round has been opened in it: by the round,
by its number in the room, and by its announcement. -/
structure Opens (before : Draft) (round : Round) (after : Draft) : Prop where
  /-- Nothing of the room changes but which round is the current one. -/
  room : after.duel.room = { before.duel.room with currentRound := some round.number }
  /-- The round comes after all others, which stay as they are. -/
  rounds : after.duel.rounds = before.duel.rounds ++ [round]
  /-- The round is announced. -/
  events : after.events = before.events ++ [.roundStarted round.number round.maxAttempts]
  /-- The round belongs to the room. -/
  owned : round.room = before.duel.id
  /-- Its number is larger than every other. -/
  fresh : ∀ earlier ∈ before.duel.rounds, earlier.number < round.number
  /-- There is a 32-bit number for it if one is left. -/
  bounded : (∀ earlier ∈ before.duel.rounds, earlier.number < 4294967295) →
    round.number < 4294967296
  /-- Its target is an answer in the language of the room, as long as the rules ask for. -/
  target : ∃ words, referee.dictionary.answers before.duel.room.language = .ok words ∧
    referee.MayDraw words round.target
  /-- Its limit of attempts is the one of the rules. -/
  maxAttempts : round.maxAttempts = referee.rules.maxAttempts
  /-- Everybody on the roster is playing in it, and nobody else. -/
  standings : ∀ player, round.standingOf? player =
    if player ∈ before.duel.room.players then some .playing else none
  /-- Nobody has guessed yet. -/
  guesses : round.guesses = []
  /-- It has not ended. -/
  unfinished : round.status = .playing ∧ round.finishedAt = none

variable {referee}

/-- The next number fits into 32 bits if all others are below the largest such number. -/
theorem number_newRound_lt {target : String}
    (h : ∀ earlier ∈ duel.rounds, earlier.number < 4294967295) :
    (referee.newRound duel target).number < 4294967296 := by
  have hnumber : (referee.newRound duel target).number = duel.maxRoundNumber?.elim 1 (· + 1) := rfl
  cases hmax : duel.maxRoundNumber? with
  | none => simp [hnumber, hmax]
  | some n =>
      obtain ⟨earlier, hearlier, rfl⟩ := List.mem_map.1 (List.max?_mem hmax)
      have hlt := h earlier hearlier
      simp only [hnumber, hmax, Option.elim_some]
      omega

theorem opens_of_opening? {draft : Draft} (h : referee.opening? draft.duel = .ok round) :
    referee.Opens draft round ⟨draft.duel.opened round,
      draft.events ++ [.roundStarted round.number round.maxAttempts]⟩ := by
  obtain ⟨-, target, hpick, rfl⟩ := referee.opening?_eq_ok_iff.1 h
  exact
    { room := rfl
      rounds := rfl
      events := rfl
      owned := rfl
      fresh := fun _ hearlier => Duel.number_lt_of_maxRoundNumber? hearlier
      bounded := number_newRound_lt
      target := mayDraw_of_pickTarget hpick
      maxAttempts := rfl
      standings := Duel.standingOf?_newRound referee draft.duel target
      guesses := rfl
      unfinished := ⟨rfl, rfl⟩ }

/-! ### Asking for a round -/

/-- Asking for a round that is being played, with any rules, words and draw, on any duel after
any announcements. It fails exactly if no round is being played and none can be opened, and then
nothing has changed. Otherwise it gives a round that has not ended and that is the current one:
the one that is being played, and nothing has changed, or else one that has been opened. -/
theorem ensureActiveRound_spec (referee : Referee) (draft : Draft) :
    (∀ failure, (∃ after, referee.ensureActiveRound.on draft = (.error failure, after)) ↔
      draft.duel.Idle ∧ referee.Obstacle draft.duel failure) ∧
    (∀ failure after, referee.ensureActiveRound.on draft = (.error failure, after) →
      after = draft) ∧
    ∀ round after, referee.ensureActiveRound.on draft = (.ok round, after) →
      round.isFinished = false ∧ after.duel.currentRound? = some round ∧
        (¬ draft.duel.Idle → after = draft) ∧
        (draft.duel.Idle → referee.Opens draft round after) := by
  rw [on_ensureActiveRound]
  cases hactive : referee.active? draft.duel with
  | error failure =>
      refine ⟨fun failure' => ?_, fun failure' after h => (Prod.mk.inj h).2.symm,
        fun round after h => nomatch h⟩
      rw [← active?_eq_error_iff, hactive]
      simp
  | ok active =>
      refine ⟨fun failure => ?_, fun failure after h => (nomatch h), ?_⟩
      · rw [← active?_eq_error_iff, hactive]
        simp
      · intro round after h
        simp only [Prod.mk.injEq, Except.ok.injEq] at h
        obtain ⟨rfl, rfl⟩ := h
        refine ⟨referee.isFinished_active? hactive, referee.currentRound?_active? hactive, ?_⟩
        obtain ⟨hcurrent, hplaying, hsame⟩ | ⟨hended, hopen, hopened⟩ :=
          referee.active?_cases hactive
        · refine ⟨fun _ => by rw [hsame, List.append_nil], fun hidle => ?_⟩
          exact absurd (hidle _ hcurrent) (by simp [hplaying])
        · refine ⟨fun hbusy => absurd (Duel.idle_iff.2 hended) hbusy, fun _ => ?_⟩
          rw [hopened]
          exact opens_of_opening? hopen

/-- Whoever asks again gets the same round, and nothing changes any more. -/
theorem ensureActiveRound_again {draft after : Draft}
    (h : referee.ensureActiveRound.on draft = (.ok round, after)) :
    referee.ensureActiveRound.on after = (.ok round, after) := by
  rw [on_ensureActiveRound] at h
  split at h
  · next active hactive =>
    simp only [Prod.mk.injEq, Except.ok.injEq] at h
    obtain ⟨rfl, rfl⟩ := h
    rw [on_ensureActiveRound, Duel.active?_of_playing (referee.currentRound?_active? hactive)
      (referee.isFinished_active? hactive)]
    simp
  · cases h

end Referee

namespace Sample

/-- A round of a room as it can be in a damaged store. -/
def roundNumbered (number : Nat) (status : RoundStatus) : Round where
  room := ⟨7⟩
  number := number
  target := "moist"
  maxAttempts := 6
  status := status
  standings := .empty
  guesses := []
  startedAt := ⟨0, 0⟩
  finishedAt := none

/-- A room whose current round does not exist, and in which a number occurs twice. -/
def damaged : Duel where
  room := ⟨⟨7⟩, .english, .waiting, [bob, alice], .empty, some 9, ⟨0, 0⟩⟩
  rounds := [roundNumbered 7 .ended, roundNumbered 3 .playing, roundNumbered 7 .playing]

end Sample

/-- The round that is opened in a damaged room comes after all others. -/
example :
    ((Sample.refereeOf "crane").ensureActiveRound.on ⟨Sample.damaged, []⟩).2.events =
        [.roundStarted 8 6] ∧
      ((Sample.refereeOf "crane").ensureActiveRound.on ⟨Sample.damaged, []⟩).2.duel.rounds.map
        Round.number = [7, 3, 7, 8] := by
  decide +kernel

end WordDuel
