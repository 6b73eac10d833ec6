import WordDuel.Proofs.NewRules
/-!
# WordDuel.Proofs.Rulings

**What a guess is answered.** The answer depends on the room, the round and the text, each of
which is looked at in a place of its own, with ways out of its own. `Round.ruling` puts the
rules of a round in one row, of which the first that is broken is reported; so a guess is
answered by the room, or by the ruling in the current round, or by that in a round opened for
it (`told_of_reachable`). The ways out that are in none of these places are never taken: a
ledger leaves guesses to whoever is playing, and a duel in progress has a current round.
-/

namespace WordDuel

/-! ### Spelling -/

namespace GuessRules

/-- The first rule that a word breaks in whatever round it is put down: it is as long as the
rules ask for and as long as the target, consists of the letters A to Z, and may be guessed. -/
def flaw? (allowed : WordSet) (wordLength : Nat) (target word : String) : Option Refusal :=
  if word.length ≠ wordLength then
    some (.invalidGuessLength (reported wordLength) (reported word.length))
  else if word.length ≠ target.length then
    some (.invalidGuessLength (reported target.length) (reported word.length))
  else if word = "" ∨ ¬Text.IsPlain word then some (.invalidGuessChars word)
  else if ¬allowed.has word then some (.wordNotAllowed word)
  else none

variable {raw target : String} {wordLength : Nat}

/-- Upper case leaves nothing of the alphabet but the letters A to Z. -/
theorem isAlphabetic_normalize_iff :
    isAlphabetic (normalize raw) ↔ normalize raw ≠ "" ∧ Text.IsPlain (normalize raw) := by
  constructor
  · intro h
    refine ⟨fun hempty => ?_, fun c hc => letters_of_normalize h hc⟩
    rw [hempty] at h
    cases h
  · rintro ⟨hnonempty, hplain⟩
    refine hplain.isAlphabetic (Nat.pos_of_ne_zero fun hzero => hnonempty ?_)
    exact String.length_eq_zero_iff.1 hzero

theorem check_normalize (lexicon : Lexicon) (language : Language) :
    check lexicon.toDictionary wordLength (normalize raw) target (some language) =
      (flaw? (lexicon.allowed language) wordLength target (normalize raw)).elim (.ok ())
        fun refusal => .error (.refused refusal) := by
  rw [check, checkLength, flaw?]
  by_cases hrules : (normalize raw).length = wordLength
  · by_cases htarget : (normalize raw).length = target.length
    · rw [if_neg (not_not_intro hrules), if_neg (not_not_intro htarget),
        if_neg (not_not_intro hrules), if_neg (not_not_intro htarget)]
      by_cases halpha : isAlphabetic (normalize raw)
      · obtain ⟨hnonempty, hplain⟩ := isAlphabetic_normalize_iff.1 halpha
        by_cases hhas : (lexicon.allowed language).has (normalize raw) <;>
          simp [halpha, hnonempty, hplain, hplain.upperAscii, Lexicon.toDictionary, hhas]
      · have hbroken : normalize raw = "" ∨ ¬Text.IsPlain (normalize raw) := by
          rw [isAlphabetic_normalize_iff] at halpha
          grind
        simp [halpha, hbroken]
    · rw [if_neg (not_not_intro hrules), if_pos htarget, if_neg (not_not_intro hrules),
        if_pos htarget]
      rfl
  · rw [if_pos hrules, if_pos hrules]
    rfl

end GuessRules

/-! ### The ruling in a round -/

namespace Round

/-- The first rule of a round that a word of a player breaks. -/
def firstBroken? (round : Round) (allowed : WordSet) (wordLength : Nat) (player : PlayerId)
    (word : String) : Option Refusal :=
  if round.isDone player then some (.playerAlreadyDone player)
  else GuessRules.flaw? allowed wordLength round.target word

/-- The answer to a word of a player in a round: the first rule that is broken, or the number of
the round and which of the player's attempts it was. -/
def ruling (round : Round) (allowed : WordSet) (wordLength : Nat) (player : PlayerId)
    (word : String) : Result (Nat × Nat) :=
  match round.firstBroken? allowed wordLength player word with
  | some refusal => .error (.refused refusal)
  | none => .ok (round.number, round.attemptsUsed player + 1)

/-- A word is refused for its player, its length, its letters or for not being a word. -/
theorem ruling_eq_error {round : Round} {allowed : WordSet} {wordLength : Nat} {player : PlayerId}
    {word : String} {failure : Failure}
    (h : round.ruling allowed wordLength player word = .error failure) :
    failure = .refused (.playerAlreadyDone player) ∨
      (∃ expected actual, failure = .refused (.invalidGuessLength expected actual)) ∨
      failure = .refused (.invalidGuessChars word) ∨ failure = .refused (.wordNotAllowed word) := by
  rw [ruling, firstBroken?, GuessRules.flaw?] at h
  grind

end Round

namespace Duel

variable {lexicon : Lexicon} {duel : Duel} {referee : Referee} {player : PlayerId} {raw : String}

/-- Whoever is part of a round that bears itself out is barred only when done with it. -/
theorem barred?_of_ledger {round : Round} (h : round.Ledger)
    (hstands : (round.standingOf? player).isSome) :
    Referee.barred? round player =
      if round.isDone player then some (.playerAlreadyDone player) else none := by
  obtain ⟨standing, hstanding⟩ := Option.isSome_iff_exists.1 hstands
  cases standing with
  | playing =>
      rw [barred?_of_playing h hstanding, Round.isDone, hstanding]
      rfl
  | won => simp [Referee.barred?, Round.isDone, hstanding, Standing.isTerminal]
  | lost => simp [Referee.barred?, Round.isDone, hstanding, Standing.isTerminal]

/-- What a guess is judged to be is the ruling in the round. -/
theorem judge_eq_ruling {round : Round} (h : round.Ledger)
    (hstands : (round.standingOf? player).isSome)
    (hdictionary : referee.dictionary = lexicon.toDictionary) (room : Room) :
    (referee.judge room round player raw).map (fun judged => (judged.1.number, judged.2.attempt)) =
      round.ruling (lexicon.allowed room.language) referee.rules.wordLength player
        (GuessRules.normalize raw) := by
  rw [Referee.judge, barred?_of_ledger h hstands, Round.ruling, Round.firstBroken?, hdictionary]
  by_cases hdone : round.isDone player
  · simp [hdone, Except.map]
  · rw [if_neg hdone, if_neg hdone]
    dsimp only
    rw [GuessRules.check_normalize]
    cases hflaw : GuessRules.flaw? (lexicon.allowed room.language) referee.rules.wordLength
      round.target (GuessRules.normalize raw) <;> simp [Except.map, Referee.record]

/-! ### What a guess is answered -/

/-- What a player is told about a guess: the number of the round that it went to and which of
the player's attempts it was, or why it is refused. -/
def told (referee : Referee) (duel : Duel) (player : PlayerId) (raw : String) :
    Result (Nat × Nat) :=
  ((referee.submitGuess player raw).commit? duel).map fun done => (done.1.1, done.1.2.attempt)

theorem told_of_unplayable? {refusal : Refusal}
    (h : Referee.unplayable? duel player = some refusal) :
    told referee duel player raw = .error (.refused refusal) := by
  rw [told, Referee.commit?_submitGuess, h]
  rfl

theorem told_of_active?_eq_error {failure : Failure}
    (hplayable : Referee.unplayable? duel player = none)
    (hactive : referee.active? duel = .error failure) :
    told referee duel player raw = .error failure := by
  rw [told, Referee.commit?_submitGuess, hplayable, hactive]
  rfl

theorem told_of_active? {active : Referee.Active}
    (hplayable : Referee.unplayable? duel player = none)
    (hactive : referee.active? duel = .ok active) (hledger : active.round.Ledger)
    (hstands : (active.round.standingOf? player).isSome)
    (hdictionary : referee.dictionary = lexicon.toDictionary) :
    told referee duel player raw =
      active.round.ruling (lexicon.allowed duel.room.language) referee.rules.wordLength player
        (GuessRules.normalize raw) := by
  rw [← referee.language_active? hactive, ← judge_eq_ruling hledger hstands hdictionary, told,
    Referee.commit?_submitGuess, hplayable, hactive]
  dsimp only
  cases referee.judge active.duel.room active.round player raw <;> rfl

/-- A round that has just been opened in a duel, for one of the answers of a lexicon. -/
structure Fresh (referee : Referee) (lexicon : Lexicon) (duel : Duel) (round : Round) : Prop where
  /-- It is the next one. -/
  number : round.number = duel.rounds.length + 1
  answer : (lexicon.answers duel.room.language).has round.target
  length : round.target.length = referee.rules.wordLength
  limit : round.maxAttempts = referee.rules.maxAttempts
  /-- Nobody has guessed yet. -/
  unplayed : round.guesses = []
  /-- Every player of the room can. -/
  playing : ∀ player ∈ duel.room.players, round.standingOf? player = some .playing

/-- Nothing but its spelling can be wrong with a player's word in a round that has just been
opened, and it is the first of the player's attempts. -/
theorem Fresh.ruling_eq {round : Round} (h : Fresh referee lexicon duel round)
    (hplayer : player ∈ duel.room.players) (allowed : WordSet) (wordLength : Nat) (word : String) :
    round.ruling allowed wordLength player word =
      (GuessRules.flaw? allowed wordLength round.target word).elim
        (.ok (duel.rounds.length + 1, 1)) fun refusal => .error (.refused refusal) := by
  have hdone : round.isDone player = false := by
    rw [Round.isDone, h.playing player hplayer]
    rfl
  rw [Round.ruling, Round.firstBroken?, hdone, h.number, Round.attemptsUsed, Round.guessesBy,
    h.unplayed]
  cases GuessRules.flaw? allowed wordLength round.target word <;> simp

/-- No target is drawn if no answer is of the length that the rules ask for. -/
theorem pickTarget_eq_error (hdictionary : referee.dictionary = lexicon.toDictionary)
    {language : Language} (hnone : ∀ word, (lexicon.answers language).has word →
      word.length ≠ referee.rules.wordLength) :
    referee.pickTarget language = .error (.refused (.dictionaryEmpty language)) := by
  have heligible : referee.eligible (lexicon.answers language) = [] := by
    refine List.filter_eq_nil_iff.2 fun word hword => ?_
    simpa using hnone word (WordSet.has_iff.2 hword)
  rw [Referee.pickTarget, hdictionary]
  dsimp only [Lexicon.toDictionary]
  rw [heligible]
  rfl

theorem fresh_of_opening? (h : duel.Ready) (hdictionary : referee.dictionary = lexicon.toDictionary)
    {round : Round} (hopen : referee.opening? duel = .ok round) :
    Fresh referee lexicon duel round := by
  obtain ⟨-, target, hpick, rfl⟩ := referee.opening?_eq_ok_iff.1 hopen
  obtain ⟨hanswer, hlength⟩ := answer_of_pickTarget hdictionary hpick
  refine ⟨nextNumber_of_numbered h.numbered, hanswer, hlength, rfl, rfl, fun player hplayer => ?_⟩
  rw [standingOf?_newRound, if_pos hplayer]

/-- Where no round is being played, one is opened if there is an answer for it. -/
theorem active?_of_ended (hended : duel.currentRound?.all Round.isFinished) :
    referee.active? duel = (referee.opening? duel).map fun round =>
      ⟨duel.opened round, round, [.roundStarted round.number round.maxAttempts]⟩ := by
  cases hcurrent : duel.currentRound? with
  | none => simp [Referee.active?, hcurrent]
  | some round =>
      have hfinished : round.isFinished := by simpa [hcurrent] using hended
      simp [Referee.active?, hcurrent, Option.filter, hfinished]

/-- The guess of a player in a room in progress whose last round has ended goes to a new round,
if there is an answer for it. -/
theorem told_of_ended (h : duel.Reachable) (hdictionary : referee.dictionary = lexicon.toDictionary)
    (hguesses : 1 ≤ referee.rules.maxAttempts) (hstatus : duel.room.status = .inProgress)
    (hplayer : player ∈ duel.room.players) (hended : duel.currentRound?.all Round.isFinished) :
    (told referee duel player raw = .error (.refused (.dictionaryEmpty duel.room.language)) ∧
      ∀ word, (lexicon.answers duel.room.language).has word →
        word.length ≠ referee.rules.wordLength) ∨
    ∃ fresh, Fresh referee lexicon duel fresh ∧
      told referee duel player raw =
        fresh.ruling (lexicon.allowed duel.room.language) referee.rules.wordLength player
          (GuessRules.normalize raw) := by
  have hplayable := playable_iff.2 ⟨hplayer, hstatus⟩
  have hready := h.wellFormed.ready hstatus hended
  have hactive : referee.active? duel = _ := active?_of_ended hended
  by_cases hnone : ∀ word, (lexicon.answers duel.room.language).has word →
      word.length ≠ referee.rules.wordLength
  · refine .inl ⟨told_of_active?_eq_error hplayable ?_, hnone⟩
    rw [hactive, Referee.opening?, if_neg (not_not_intro hready.players),
      pickTarget_eq_error hdictionary hnone]
    rfl
  · obtain ⟨word, hword⟩ := Classical.not_forall.1 hnone
    obtain ⟨hhas, hlength⟩ := Classical.not_imp.1 hword
    obtain ⟨target, hpick⟩ :=
      exists_pickTarget hdictionary hhas (Classical.not_not.1 hlength)
    have hopen := referee.opening?_eq_ok_iff.2 ⟨hready.players, target, hpick, rfl⟩
    have hfresh := fresh_of_opening? hready hdictionary hopen
    rw [hopen] at hactive
    refine .inr ⟨_, hfresh, told_of_active? hplayable hactive (h.ledger_active? hguesses hactive)
      ?_ hdictionary⟩
    rw [hfresh.playing player hplayer]
    rfl

/-- The guess of a player in a round that is being played is answered by the ruling in it. -/
theorem told_of_playing (h : duel.Reachable)
    (hdictionary : referee.dictionary = lexicon.toDictionary)
    (hstatus : duel.room.status = .inProgress) (hplayer : player ∈ duel.room.players)
    {round : Round} (hcurrent : duel.currentRound? = some round)
    (hplaying : round.isFinished = false) :
    told referee duel player raw =
      round.ruling (lexicon.allowed duel.room.language) referee.rules.wordLength player
        (GuessRules.normalize raw) := by
  have hround := h.wellFormed.mem_rounds hcurrent
  exact told_of_active? (playable_iff.2 ⟨hplayer, hstatus⟩) (active?_of_playing hcurrent hplaying)
    (h.ledger round hround) (((h.wellFormed.standings round hround).2 player).2 hplayer)
    hdictionary

/-- A room in progress has a current round. -/
theorem exists_currentRound? (h : duel.WellFormed) (hstatus : duel.room.status = .inProgress) :
    ∃ round, duel.currentRound? = some round := by
  rcases List.eq_nil_or_concat duel.rounds with hnil | ⟨earlier, last, hrounds⟩
  · exact ((h.inProgress hstatus).rounds hnil).elim
  · rw [List.concat_eq_append] at hrounds
    exact ⟨last, h.currentRound?_append hrounds⟩

/-- There are three reasons why a player may not play. -/
theorem unplayable?_cases {refusal : Refusal}
    (h : Referee.unplayable? duel player = some refusal) :
    refusal = .roomClosed duel.id ∨ refusal = .playerNotInRoom player ∨
      refusal = .roomNotReady duel.id := by
  rw [Referee.unplayable?] at h
  grind

/-- A guess is answered by the room, for want of an answer that could be the next target, or by
the ruling in a round. -/
theorem told_cases (h : duel.Reachable) (hdictionary : referee.dictionary = lexicon.toDictionary)
    (hguesses : 1 ≤ referee.rules.maxAttempts) (player : PlayerId) (raw : String) :
    (∃ refusal, Referee.unplayable? duel player = some refusal ∧
      told referee duel player raw = .error (.refused refusal)) ∨
    told referee duel player raw = .error (.refused (.dictionaryEmpty duel.room.language)) ∨
    ∃ round : Round, told referee duel player raw =
      round.ruling (lexicon.allowed duel.room.language) referee.rules.wordLength player
        (GuessRules.normalize raw) := by
  cases hplayable : Referee.unplayable? duel player with
  | some refusal => exact .inl ⟨refusal, rfl, told_of_unplayable? hplayable⟩
  | none =>
      obtain ⟨hplayer, hstatus⟩ := playable_iff.1 hplayable
      obtain ⟨round, hcurrent⟩ := exists_currentRound? h.wellFormed hstatus
      cases hfinished : round.isFinished with
      | false =>
          exact .inr (.inr ⟨round, told_of_playing h hdictionary hstatus hplayer hcurrent hfinished⟩)
      | true =>
          have hended : duel.currentRound?.all Round.isFinished := by simp [hcurrent, hfinished]
          rcases told_of_ended h hdictionary hguesses hstatus hplayer hended with
            ⟨htold, -⟩ | ⟨fresh, -, htold⟩
          · exact .inr (.inl htold)
          · exact .inr (.inr ⟨fresh, htold⟩)

/-- Under words that are held in memory and any rules that allow a guess at least, a guess in
a duel that has come about is answered as follows. In a closed room, by somebody who is not a
player of the room, and before there are two of them, it is refused as such. Otherwise there is
a current round, and while that is being played the answer is the ruling in it. Once it has
ended the guess goes to the next round, opened for one of the answers, if there is one of the
length that the rules ask for, and is refused for want of one if there is none. No guess fails
for any other reason: there always is a current round and a language, and nobody is ever told
to have no guesses left. -/
theorem told_of_reachable (h : duel.Reachable)
    (hdictionary : referee.dictionary = lexicon.toDictionary)
    (hguesses : 1 ≤ referee.rules.maxAttempts) (player : PlayerId) (raw : String) :
    (duel.room.status = .closed →
      told referee duel player raw = .error (.refused (.roomClosed duel.id))) ∧
    (duel.room.status ≠ .closed → player ∉ duel.room.players →
      told referee duel player raw = .error (.refused (.playerNotInRoom player))) ∧
    (duel.room.status = .waiting → player ∈ duel.room.players →
      told referee duel player raw = .error (.refused (.roomNotReady duel.id))) ∧
    (duel.room.status = .inProgress → player ∈ duel.room.players →
      ∃ current, duel.currentRound? = some current ∧
        (current.isFinished = false → told referee duel player raw =
          current.ruling (lexicon.allowed duel.room.language) referee.rules.wordLength player
            (GuessRules.normalize raw)) ∧
        (current.isFinished → (∀ word, (lexicon.answers duel.room.language).has word →
            word.length ≠ referee.rules.wordLength) →
          told referee duel player raw =
            .error (.refused (.dictionaryEmpty duel.room.language))) ∧
        (current.isFinished → (∃ word, (lexicon.answers duel.room.language).has word ∧
            word.length = referee.rules.wordLength) →
          ∃ fresh, Fresh referee lexicon duel fresh ∧
            told referee duel player raw =
              fresh.ruling (lexicon.allowed duel.room.language) referee.rules.wordLength player
                (GuessRules.normalize raw))) ∧
    ∀ failure, told referee duel player raw = .error failure →
      ∃ refusal, failure = .refused refusal ∧ refusal ≠ .invalidLanguage ∧
        ∀ limit, refusal ≠ .noAttemptsLeft limit := by
  refine ⟨fun hstatus => ?_, fun hstatus hplayer => ?_, fun hstatus hplayer => ?_,
    fun hstatus hplayer => ?_, fun failure hfailure => ?_⟩
  · exact told_of_unplayable? (by rw [Referee.unplayable?, if_pos hstatus])
  · exact told_of_unplayable? (by simp [Referee.unplayable?, Room.isMember, hstatus, hplayer])
  · exact told_of_unplayable? (by simp [Referee.unplayable?, Room.isMember, hstatus, hplayer])
  · obtain ⟨current, hcurrent⟩ := exists_currentRound? h.wellFormed hstatus
    have hended (hfinished : current.isFinished) : duel.currentRound?.all Round.isFinished := by
      simp [hcurrent, hfinished]
    refine ⟨current, hcurrent, told_of_playing h hdictionary hstatus hplayer hcurrent,
      fun hfinished hnone => ?_, fun hfinished hsome => ?_⟩
    · rcases told_of_ended h hdictionary hguesses hstatus hplayer (hended hfinished) with
        ⟨htold, -⟩ | ⟨fresh, hfresh, -⟩
      · exact htold
      · exact (hnone fresh.target hfresh.answer hfresh.length).elim
    · obtain ⟨word, hword, hlength⟩ := hsome
      rcases told_of_ended h hdictionary hguesses hstatus hplayer (hended hfinished) with
        ⟨-, hnone⟩ | ⟨fresh, hfresh, htold⟩
      · exact (hnone word hword hlength).elim
      · exact ⟨fresh, hfresh, htold⟩
  · rcases told_cases h hdictionary hguesses player raw with
      ⟨refusal, hrefused, htold⟩ | htold | ⟨round, htold⟩
    · rw [htold] at hfailure
      refine ⟨refusal, (Except.error.inj hfailure).symm, ?_⟩
      rcases unplayable?_cases hrefused with rfl | rfl | rfl <;> simp
    · rw [htold] at hfailure
      exact ⟨_, (Except.error.inj hfailure).symm, by simp⟩
    · rw [htold] at hfailure
      rcases Round.ruling_eq_error hfailure with rfl | ⟨_, _, rfl⟩ | rfl | rfl <;>
        exact ⟨_, rfl, by simp⟩

/-- When both players have found the word of five letters and words of six are asked for, a
guess goes to the next round, whose word has six letters: it counts if it has as many, and is
refused if not. -/
theorem told_of_both_found :
    told (Sample.refereeAsking 6 Sample.mixedWords)
        (Sample.afterUnder Sample.mixedWords Sample.bothFound) Sample.alice " planet " =
      .ok (2, 1) ∧
    told (Sample.refereeAsking 6 Sample.mixedWords)
        (Sample.afterUnder Sample.mixedWords Sample.bothFound) Sample.alice "crane" =
      .error (.refused (.invalidGuessLength 6 5)) := by
  have hreachable : (Sample.afterUnder Sample.mixedWords Sample.bothFound).Reachable :=
    (Sample.arisesBy_afterUnder _ _).reachable fun _ hearlier => hearlier.rules.maxAttempts
  have hstatus :
      (Sample.afterUnder Sample.mixedWords Sample.bothFound).room.status = .inProgress := by
    decide +kernel
  have hplayer : Sample.alice ∈
      (Sample.afterUnder Sample.mixedWords Sample.bothFound).room.players := by
    decide +kernel
  have hended : (Sample.afterUnder Sample.mixedWords Sample.bothFound).currentRound?.all
      Round.isFinished := by
    decide +kernel
  have hanswers : ∃ word, ((Lexicon.ofLists (Sample.answersOf Sample.mixedWords)).answers
      (Sample.afterUnder Sample.mixedWords Sample.bothFound).room.language).has word ∧
      word.length = 6 := ⟨"PLANET", by decide +kernel, by decide⟩
  have hrounds : (Sample.afterUnder Sample.mixedWords Sample.bothFound).rounds.length = 1 := by
    decide +kernel
  have hlanguage :
      (Sample.afterUnder Sample.mixedWords Sample.bothFound).room.language = .english := by
    decide +kernel
  have hconsults : (Sample.refereeAsking 6 Sample.mixedWords).dictionary =
      (Lexicon.ofLists (Sample.answersOf Sample.mixedWords)).toDictionary := rfl
  have htold (raw : String) : told (Sample.refereeAsking 6 Sample.mixedWords)
        (Sample.afterUnder Sample.mixedWords Sample.bothFound) Sample.alice raw =
      (GuessRules.flaw? ((Lexicon.ofLists (Sample.answersOf Sample.mixedWords)).allowed .english) 6
        "PLANET" (GuessRules.normalize raw)).elim (.ok (2, 1)) fun refusal =>
          .error (.refused refusal) := by
    obtain ⟨-, -, -, hprogress, -⟩ :=
      told_of_reachable hreachable hconsults (by decide) Sample.alice raw
    obtain ⟨current, hcurrent, -, -, hopened⟩ := hprogress hstatus hplayer
    rw [hcurrent] at hended
    obtain ⟨fresh, hfresh, htold⟩ := hopened hended hanswers
    have hlength : fresh.target.length = "PLANET".length := hfresh.length
    rw [htold, hfresh.ruling_eq hplayer, GuessRules.flaw?, GuessRules.flaw?, hlength, hrounds,
      hlanguage]
    rfl
  have hplanet : GuessRules.flaw? ((Lexicon.ofLists (Sample.answersOf Sample.mixedWords)).allowed
      .english) 6 "PLANET" (GuessRules.normalize " planet ") = none := by
    decide +kernel
  have hcrane : GuessRules.flaw? ((Lexicon.ofLists (Sample.answersOf Sample.mixedWords)).allowed
      .english) 6 "PLANET" (GuessRules.normalize "crane") = some (.invalidGuessLength 6 5) := by
    decide +kernel
  exact ⟨by rw [htold, hplanet]; rfl, by rw [htold, hcrane]; rfl⟩

end Duel

end WordDuel
