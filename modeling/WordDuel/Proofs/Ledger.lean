import WordDuel.Proofs.Legality
import WordDuel.Proofs.Rounds
/-!
# WordDuel.Proofs.Ledger

**The guesses of a round bear out its standings.** A round keeps for each player how the
player stands, and beside that the guesses of both players in one list, from which
attempts are counted anew for every guess. `Round.verdict` reads the standing off the
guesses; `Round.Ledger` says that this is the one that is kept, and that the guesses are
numbered in order and legal. It holds of every round of every duel that can come about,
whichever rules are in force when a guess is made: the limit is the round's own.
-/

namespace WordDuel

/-! ### The invariant -/

/-- A word of the letters A to Z, as long as the target, with the marks it deserves. -/
structure Guess.Legal (guess : Guess) (target : String) : Prop where
  letters : ∀ c ∈ guess.word.toList, 'A' ≤ c ∧ c ≤ 'Z'
  length : guess.word.length = target.length
  marked : guess.letters = Marking.mark target guess.word

namespace Round

/-- How a player stands in a round going by the guesses alone. -/
def verdict (round : Round) (player : PlayerId) : Standing :=
  (round.guessesBy player).getLast?.elim .playing fun last =>
    Referee.standingAfter round last.word (round.attemptsUsed player)

/-- A player's guesses and standing in a round fit together. -/
structure Borne (round : Round) (player : PlayerId) (standing : Standing) : Prop where
  /-- The guesses are numbered from 1 in order. -/
  numbered : (round.guessesBy player).map Guess.attempt =
    List.range' 1 (round.attemptsUsed player)
  /-- There are no more of them than are allowed. -/
  within : round.attemptsUsed player ≤ round.maxAttempts
  /-- None but the last has found the word. -/
  earlier : ∀ guess ∈ (round.guessesBy player).dropLast, guess.word ≠ round.target
  /-- The standing is the one that the guesses say. -/
  standing : standing = round.verdict player

/-- The guesses of a round are legal, and they bear out how everybody stands. -/
structure Ledger (round : Round) : Prop where
  /-- A player has a guess at least. -/
  limit : 1 ≤ round.maxAttempts
  legal : ∀ guess ∈ round.guesses, guess.Legal round.target
  borne : ∀ player standing, round.standingOf? player = some standing →
    round.Borne player standing

/-! ### What the guesses say -/

theorem mem_guesses_of_mem_guessesBy {round : Round} {player : PlayerId} {guess : Guess}
    (h : guess ∈ round.guessesBy player) : guess ∈ round.guesses :=
  (List.mem_filter.1 h).1

variable {round : Round} {player : PlayerId} {standing : Standing}

/-- A player has not guessed yet, or the last guess decides how the player stands. -/
theorem Borne.cases (h : round.Borne player standing) :
    (round.guessesBy player = [] ∧ standing = .playing) ∨
    ∃ earlier last, round.guessesBy player = earlier ++ [last] ∧
      (∀ guess ∈ earlier, guess.word ≠ round.target) ∧
      standing = Referee.standingAfter round last.word (round.attemptsUsed player) := by
  have hverdict := h.standing
  have hearlier := h.earlier
  rw [verdict] at hverdict
  rcases List.eq_nil_or_concat (round.guessesBy player) with hnil | ⟨earlier, last, hguesses⟩
  · rw [hnil] at hverdict
    exact .inl ⟨hnil, hverdict⟩
  · rw [List.concat_eq_append] at hguesses
    rw [hguesses, List.getLast?_concat] at hverdict
    rw [hguesses, List.dropLast_concat] at hearlier
    exact .inr ⟨earlier, last, hguesses, hearlier, hverdict⟩

/-- A player has won when the last guess is the word. -/
theorem Borne.won_iff (h : round.Borne player standing) :
    standing = .won ↔
      ∃ last, (round.guessesBy player).getLast? = some last ∧ last.word = round.target := by
  rcases h.cases with ⟨hnil, rfl⟩ | ⟨earlier, last, hguesses, -, rfl⟩
  · simp [hnil]
  · rw [hguesses, List.getLast?_concat, Referee.standingAfter]
    split
    · next hword => simp [hword]
    · next hword => split <;> simp [hword]

/-- A player has lost when all guesses are used up and none is the word. -/
theorem Borne.lost_iff (h : round.Borne player standing) (hlimit : 1 ≤ round.maxAttempts) :
    standing = .lost ↔
      round.attemptsUsed player = round.maxAttempts ∧
        ∀ guess ∈ round.guessesBy player, guess.word ≠ round.target := by
  rcases h.cases with ⟨hnil, rfl⟩ | ⟨earlier, last, hguesses, hearlier, rfl⟩
  · simp only [attemptsUsed, hnil, List.length_nil, reduceCtorEq, false_iff]
    omega
  · rw [Referee.standingAfter]
    split
    · next hword => simp [hguesses, hword]
    · next hword =>
      split
      · next hlast => simpa [hlast, hguesses, or_imp, forall_and, hword] using hearlier
      · next hlast => simp [hlast]

/-- A player can guess while guesses are left and none has been the word. -/
theorem Borne.playing_iff (h : round.Borne player standing) (hlimit : 1 ≤ round.maxAttempts) :
    standing = .playing ↔
      round.attemptsUsed player < round.maxAttempts ∧
        ∀ guess ∈ round.guessesBy player, guess.word ≠ round.target := by
  have hwithin := h.within
  rcases h.cases with ⟨hnil, rfl⟩ | ⟨earlier, last, hguesses, hearlier, rfl⟩
  · simp only [attemptsUsed, hnil, List.length_nil, true_iff]
    exact ⟨hlimit, fun guess hguess => by cases hguess⟩
  · rw [Referee.standingAfter]
    split
    · next hword => simp [hguesses, hword]
    · next hword =>
      split
      · next hlast => simp [hlast]
      · next hlast =>
        have hleft : round.attemptsUsed player < round.maxAttempts :=
          Nat.lt_of_le_of_ne hwithin hlast
        simpa [hleft, hguesses, or_imp, forall_and, hword] using hearlier

/-! ### One guess more -/

theorem guessesBy_record (guess : Guess) (standing : Standing) :
    (Referee.record round guess standing).guessesBy player =
      if guess.player = player then round.guessesBy player ++ [guess]
      else round.guessesBy player := by
  by_cases hplayer : guess.player = player <;>
    simp [Referee.record, guessesBy, List.filter_append, hplayer]

theorem Borne.of_other (h : round.Borne player standing) {guess : Guess} {standing' : Standing}
    (hplayer : guess.player ≠ player) :
    (Referee.record round guess standing').Borne player standing := by
  have hguesses : (Referee.record round guess standing').guessesBy player =
      round.guessesBy player := by
    rw [guessesBy_record, if_neg hplayer]
  refine ⟨?_, ?_, ?_, ?_⟩
  · rw [attemptsUsed, hguesses]
    exact h.numbered
  · rw [attemptsUsed, hguesses]
    exact h.within
  · rw [hguesses]
    exact h.earlier
  · rw [verdict, attemptsUsed, hguesses]
    exact h.standing

/-- A guess that has the next number, made while guesses are left, decides how the player
stands. -/
theorem Borne.recorded (h : round.Borne player .playing) (hlimit : 1 ≤ round.maxAttempts)
    (guess : Guess) (hplayer : guess.player = player)
    (hattempt : guess.attempt = round.attemptsUsed player + 1) :
    (Referee.record round guess (Referee.standingAfter round guess.word guess.attempt)).Borne player
      (Referee.standingAfter round guess.word guess.attempt) := by
  obtain ⟨hleft, hmissed⟩ := (h.playing_iff hlimit).1 rfl
  have hguesses (standing : Standing) : (Referee.record round guess standing).guessesBy player =
      round.guessesBy player ++ [guess] := by
    rw [guessesBy_record, if_pos hplayer]
  have hused (standing : Standing) : (Referee.record round guess standing).attemptsUsed player =
      round.attemptsUsed player + 1 := by
    rw [attemptsUsed, hguesses, List.length_append]
    rfl
  refine ⟨?_, ?_, ?_, ?_⟩
  · rw [hguesses, hused, List.map_append, h.numbered, List.range'_concat, List.map_singleton,
      hattempt, Nat.one_mul, Nat.add_comm]
  · rw [hused]
    exact hleft
  · rw [hguesses, List.dropLast_concat]
    exact hmissed
  · rw [verdict, hguesses, hused, List.getLast?_concat, hattempt]
    rfl

/-- The end of a round leaves its guesses and standings alone. -/
theorem Ledger.concluded (h : round.Ledger) (referee : Referee) (room : Room) :
    (referee.concluded room round).Ledger := by
  rw [Referee.concluded]
  split
  · refine ⟨h.limit, h.legal, ?_⟩
    intro player standing hstanding
    have hborne := h.borne player standing hstanding
    exact ⟨hborne.numbered, hborne.within, hborne.earlier, hborne.standing⟩
  · exact h

end Round

namespace Duel

theorem ledger_newRound (referee : Referee) (duel : Duel) (target : String)
    (hlimit : 1 ≤ referee.rules.maxAttempts) : (referee.newRound duel target).Ledger where
  limit := hlimit
  legal guess hguess := by cases hguess
  borne player standing hstanding := by
    rw [standingOf?_newRound] at hstanding
    split at hstanding
    · obtain rfl := Option.some.inj hstanding
      have hnone : ∀ guess ∈ ((referee.newRound duel target).guessesBy player).dropLast,
          guess.word ≠ target := by
        intro guess hguess
        cases hguess
      exact ⟨rfl, Nat.zero_le _, hnone, rfl⟩
    · cases hstanding

/-- A guess that has passed the check is legal. -/
theorem legal_of_check {dictionary : Dictionary} {wordLength : Nat} {language : Language}
    {raw target : String} {guess : Guess} (hword : GuessRules.normalize raw = guess.word)
    (hmarked : guess.letters = Marking.mark target guess.word)
    (h : GuessRules.check dictionary wordLength guess.word target (some language) = .ok ()) :
    guess.Legal target := by
  obtain ⟨-, hlength, hletters, -⟩ := GuessRules.check_eq_ok_iff.1 h
  rw [← hword] at hletters
  refine ⟨?_, hlength, hmarked⟩
  intro c hc
  rw [← hword] at hc
  exact GuessRules.letters_of_normalize hletters hc

/-- A player who could still guess stands as the guess decides. -/
theorem standingOf?_recorded {round : Round} {guess : Guess} {standing : Standing}
    (h : round.standingOf? guess.player = some .playing) :
    (Referee.record round guess standing).standingOf? guess.player = some standing := by
  rw [Referee.standingOf?_record, h]
  cases standing <;> simp [Standing.isTerminal]

/-- A guess that is put down keeps the ledger in order. -/
theorem ledger_judge {referee : Referee} {room : Room} {round round' : Round} {player : PlayerId}
    {raw : String} {outcome : Outcome} (h : round.Ledger)
    (hjudge : referee.judge room round player raw = .ok (round', outcome)) : round'.Ledger := by
  obtain ⟨hbarred, hcheck, houtcome, hround⟩ := referee.judge_eq_ok_iff.1 hjudge
  obtain ⟨hplaying, -⟩ := Referee.barred?_eq_none_iff.1 hbarred
  -- What the word is does not matter from here on.
  generalize hword : GuessRules.normalize raw = word at hcheck houtcome hround
  subst houtcome hround
  have hborne := (h.borne player .playing hplaying).recorded h.limit ⟨player, word,
    round.attemptsUsed player + 1, Marking.mark round.target word, referee.clock .guess⟩ rfl rfl
  refine ⟨h.limit, fun guess hguess => ?_, fun other standing hstanding => ?_⟩
  · rcases List.mem_append.1 hguess with hguess | hguess
    · exact h.legal guess hguess
    · rw [List.mem_singleton.1 hguess]
      exact legal_of_check hword rfl hcheck
  by_cases hother : player = other
  · subst hother
    rw [standingOf?_recorded hplaying] at hstanding
    obtain rfl := Option.some.inj hstanding
    exact hborne
  · rw [Referee.standingOf?_record, if_neg fun hdone => hother hdone.2.symm] at hstanding
    exact (h.borne other standing hstanding).of_other hother

/-- The guesses bear out the standings in every round. -/
theorem Reachable.ledger {duel : Duel} (h : duel.Reachable) : ∀ round ∈ duel.rounds, round.Ledger :=
  h.forall_round ledger_newRound fun referee room _ _ _ _ _ hround hjudge =>
    (ledger_judge hround hjudge).concluded referee room

/-! ### Nothing follows a win or a loss -/

/-- Who is done with a round has no more guesses put down in it. -/
theorem done_of_roundStep {referee : Referee} {room : Room} {round round' : Round}
    {player : PlayerId} (hdone : round.isDone player)
    (hstep : referee.RoundStep room round round') :
    round'.guessesBy player = round.guessesBy player ∧
      round'.standingOf? player = round.standingOf? player := by
  cases hstep with
  | kept => exact ⟨rfl, rfl⟩
  | @guessed guesser raw recorded outcome hplaying hjudge =>
      obtain ⟨hbarred, -, -, hrecorded⟩ := referee.judge_eq_ok_iff.1 hjudge
      obtain ⟨hstanding, -⟩ := Referee.barred?_eq_none_iff.1 hbarred
      have hother : guesser ≠ player := by
        rintro rfl
        simp [Round.isDone, hstanding, Standing.isTerminal] at hdone
      have hconcluded : (referee.concluded room recorded).guessesBy player =
          recorded.guessesBy player ∧
          (referee.concluded room recorded).standingOf? player = recorded.standingOf? player := by
        rw [Referee.concluded]
        split <;> exact ⟨rfl, rfl⟩
      rw [hconcluded.1, hconcluded.2, hrecorded, Round.guessesBy_record, if_neg hother,
        Referee.standingOf?_record, if_neg fun hwho => hother hwho.2.symm]
      exact ⟨rfl, rfl⟩

theorem Reachable.done_course {duel : Duel} (h : duel.Reachable) {plies : List Ply}
    (hguesses : ∀ ply ∈ plies, 1 ≤ ply.referee.rules.maxAttempts) {i : Nat} {round : Round}
    {player : PlayerId} (hround : duel.rounds[i]? = some round) (hdone : round.isDone player) :
    ∃ round', (duel.course plies).rounds[i]? = some round' ∧
      round'.guessesBy player = round.guessesBy player ∧
      round'.standingOf? player = round.standingOf? player := by
  induction plies generalizing duel round with
  | nil => exact ⟨round, hround, rfl, rfl⟩
  | cons ply plies ih =>
      obtain ⟨next, hnext, hstep⟩ := (h.wellFormed.rounds_after ply).old i round hround
      obtain ⟨hsame, hstands⟩ := done_of_roundStep hdone hstep
      have hdone' : next.isDone player := by
        rw [Round.isDone, hstands]
        exact hdone
      obtain ⟨round', hround', hguesses', hstanding'⟩ :=
        ih (h.played ply (hguesses ply (by simp))) (fun p hp => hguesses p (by simp [hp])) hnext
          hdone'
      exact ⟨round', hround', hguesses'.trans hsame, hstanding'.trans hstands⟩

/-! ### Nobody who can still guess runs out of guesses -/

/-- The test for guesses left never fails: who has none left has lost. -/
theorem barred?_ne_noAttemptsLeft {round : Round} (h : round.Ledger) (player : PlayerId) (n : Nat) :
    Referee.barred? round player ≠ some (.noAttemptsLeft n) := by
  rw [Referee.barred?]
  cases hstanding : round.standingOf? player with
  | none => simp
  | some standing =>
      cases standing with
      | playing =>
          obtain ⟨hleft, -⟩ := ((h.borne player .playing hstanding).playing_iff h.limit).1 rfl
          have hroom : ¬round.maxAttempts < round.attemptsUsed player + 1 := by omega
          simp [Standing.isTerminal, hroom]
      | won => simp [Standing.isTerminal]
      | lost => simp [Standing.isTerminal]

theorem unplayable?_ne_noAttemptsLeft (duel : Duel) (player : PlayerId) (n : Nat) :
    Referee.unplayable? duel player ≠ some (.noAttemptsLeft n) := by
  rw [Referee.unplayable?]
  cases duel.room.status <;> by_cases hmember : duel.room.isMember player <;> simp [hmember]

theorem Reachable.ledger_active? {duel : Duel} (h : duel.Reachable) {referee : Referee}
    (hlimit : 1 ≤ referee.rules.maxAttempts) {active : Referee.Active}
    (hactive : referee.active? duel = .ok active) : active.round.Ledger := by
  rcases referee.active?_cases hactive with ⟨hcurrent, -, -⟩ | ⟨-, hopen, -⟩
  · exact h.ledger _ (h.wellFormed.mem_rounds hcurrent)
  · obtain ⟨-, target, -, hround⟩ := referee.opening?_eq_ok_iff.1 hopen
    rw [hround]
    exact ledger_newRound referee duel target hlimit

/-- A round cannot be opened for want of a player, of a word that can be the target, or of
the dictionary. -/
theorem opening?_eq_error {referee : Referee} {duel : Duel} {failure : Failure}
    (h : referee.opening? duel = .error failure) :
    failure = .refused (.roomNotReady duel.id) ∨
      failure = .refused (.dictionaryEmpty duel.room.language) ∨
      referee.dictionary.Reports duel.room.language failure := by
  rw [Referee.opening?] at h
  split at h
  · exact .inl (Except.error.inj h).symm
  · rw [Referee.pickTarget] at h
    split at h
    · next failure' hanswers =>
      obtain rfl := Except.error.inj h
      exact .inr (.inr (.inr hanswers))
    · split at h
      · cases h
      · exact .inr (.inl (Except.error.inj h).symm)

/-- A guess is not refused for want of attempts, unless it is the dictionary that says so. -/
theorem Reachable.reports_of_noAttemptsLeft {duel : Duel} (h : duel.Reachable) {referee : Referee}
    (hlimit : 1 ≤ referee.rules.maxAttempts) {player : PlayerId} {raw : String} {n : Nat}
    (hrefused : (referee.submitGuess player raw).commit? duel =
      .error (.refused (.noAttemptsLeft n))) :
    referee.dictionary.Reports duel.room.language (.refused (.noAttemptsLeft n)) := by
  rcases referee.submitGuess_eq_error hrefused with
    ⟨refusal, hunplayable, heq⟩ | hopening | ⟨active, hactive, hjudge⟩
  · obtain rfl := Failure.refused.inj heq
    exact (unplayable?_ne_noAttemptsLeft duel player n hunplayable).elim
  · rcases opening?_eq_error hopening with heq | heq | hreports
    · cases heq
    · cases heq
    · exact hreports
  · rcases referee.judge_eq_error hjudge with ⟨refusal, hbarred, heq⟩ | hcheck
    · obtain rfl := Failure.refused.inj heq
      exact (barred?_ne_noAttemptsLeft (h.ledger_active? hlimit hactive) player n hbarred).elim
    · rcases GuessRules.check_eq_error hcheck with ⟨_, _, heq⟩ | heq | ⟨_, heq⟩ | hallowed
      · cases heq
      · cases heq
      · cases heq
      · rw [referee.language_active? hactive] at hallowed
        exact .inl hallowed

/-! ### The invariant in full -/

/-- In every round of every duel that can come about, the guesses of each player are
numbered 1, 2, …, no more than the round allows, each a legal word with its marks. The
player has won exactly when the last guess is the word, has lost exactly when all guesses
are used up and none is the word, and can still guess exactly when guesses are left and
none is the word; no guess but the last is ever the word. However the duel goes on, the
guesses of a player who is done with a round stay as they are, and nobody is ever told to
have no guesses left, unless it is a dictionary that fails with these words. -/
theorem ledger_of_reachable {duel : Duel} (h : duel.Reachable) :
    (∀ round ∈ duel.rounds, ∀ player ∈ duel.room.players,
      (round.guessesBy player).map Guess.attempt = List.range' 1 (round.attemptsUsed player) ∧
      round.attemptsUsed player ≤ round.maxAttempts ∧
      (∀ guess ∈ round.guessesBy player, guess.Legal round.target) ∧
      (round.standingOf? player = some .won ↔
        ∃ last, (round.guessesBy player).getLast? = some last ∧ last.word = round.target) ∧
      (round.standingOf? player = some .lost ↔
        round.attemptsUsed player = round.maxAttempts ∧
          ∀ guess ∈ round.guessesBy player, guess.word ≠ round.target) ∧
      (round.standingOf? player = some .playing ↔
        round.attemptsUsed player < round.maxAttempts ∧
          ∀ guess ∈ round.guessesBy player, guess.word ≠ round.target) ∧
      ∀ guess ∈ (round.guessesBy player).dropLast, guess.word ≠ round.target) ∧
    (∀ (plies : List Ply) (i : Nat) (round : Round) (player : PlayerId),
      (∀ ply ∈ plies, 1 ≤ ply.referee.rules.maxAttempts) → duel.rounds[i]? = some round →
      round.isDone player →
      ∃ round', (duel.course plies).rounds[i]? = some round' ∧
        round'.guessesBy player = round.guessesBy player ∧
        round'.standingOf? player = round.standingOf? player) ∧
    ∀ (referee : Referee) (player : PlayerId) (raw : String) (n : Nat),
      1 ≤ referee.rules.maxAttempts →
      (referee.submitGuess player raw).commit? duel = .error (.refused (.noAttemptsLeft n)) →
      referee.dictionary.Reports duel.room.language (.refused (.noAttemptsLeft n)) := by
  refine ⟨?_, ?_, ?_⟩
  · intro round hround player hplayer
    have hledger := h.ledger round hround
    have hstands := ((h.wellFormed.standings round hround).2 player).2 hplayer
    obtain ⟨standing, hstanding⟩ := Option.isSome_iff_exists.1 hstands
    have hborne := hledger.borne player standing hstanding
    simp only [hstanding, Option.some.injEq]
    exact ⟨hborne.numbered, hborne.within,
      fun guess hguess => hledger.legal guess (Round.mem_guesses_of_mem_guessesBy hguess),
      hborne.won_iff, hborne.lost_iff hledger.limit, hborne.playing_iff hledger.limit,
      hborne.earlier⟩
  · intro plies i round player hguesses hround hdone
    exact h.done_course hguesses hround hdone
  · intro referee player raw n hlimit hrefused
    exact h.reports_of_noAttemptsLeft hlimit hrefused

/-- After the first of two rounds: a winner, a loser, and a round that stays as it is while
the second one is played. -/
theorem ledger_of_two_rounds :
    (Sample.after Sample.twoRounds).Reachable ∧
      (∀ round ∈ (Sample.after Sample.twoRounds).rounds,
        ∀ player ∈ (Sample.after Sample.twoRounds).room.players,
        round.attemptsUsed player ≤ round.maxAttempts ∧
        (round.standingOf? player = some .lost →
          ∀ guess ∈ round.guessesBy player, guess.word ≠ round.target)) ∧
      (∀ round, (Sample.after Sample.twoRounds).rounds[0]? = some round →
        ∃ round', ((Sample.after Sample.twoRounds).course
            [⟨Sample.referee, .guess Sample.bob "crane"⟩]).rounds[0]? = some round' ∧
          round'.guessesBy Sample.bob = round.guessesBy Sample.bob) ∧
      ∀ player raw n, (Sample.referee.submitGuess player raw).commit?
        (Sample.after Sample.twoRounds) ≠ .error (.refused (.noAttemptsLeft n)) := by
  have hreachable := Sample.reachable_after Sample.twoRounds
  obtain ⟨hstatic, hdone, hleft⟩ := ledger_of_reachable hreachable
  refine ⟨hreachable, ?_, ?_, ?_⟩
  · intro round hround player hplayer
    obtain ⟨-, hwithin, -, -, hlost, -⟩ := hstatic round hround player hplayer
    exact ⟨hwithin, fun hstanding => (hlost.1 hstanding).2⟩
  · intro round hround
    have hbob : ((Sample.after Sample.twoRounds).rounds[0]?.any fun r => r.isDone Sample.bob) := by
      decide +kernel
    rw [hround] at hbob
    obtain ⟨round', hround', hguesses, -⟩ := hdone [⟨Sample.referee, .guess Sample.bob "crane"⟩]
      0 round Sample.bob (by decide) hround hbob
    exact ⟨round', hround', hguesses⟩
  · intro player raw n hrefused
    rcases hleft Sample.referee player raw n (by decide) hrefused with hallowed | hanswers
    · cases hallowed
    · cases hanswers

end Duel

end WordDuel
