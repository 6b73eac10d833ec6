import WordDuel.Proofs.Ledger
import WordDuel.Proofs.Marks
/-!
# WordDuel.Proofs.Solved

**When the marks say that the word has been found.** A player sees it from the marks, which are
all correct; the referee compares the words. The marks alone say a little less, since a guess that
is a proper beginning of the target is marked correct throughout, and since no letters at all solve
nothing. But a guess that is accepted is as long as the target and has a letter, so that the two
agree on it (`solved_iff_won`).
-/

namespace WordDuel

namespace Marking

/-! ### All letters correct -/

/-- The first pass marks everything correct when the target begins with the guess. -/
theorem all_correct_markExact (target guess : List Char) (t : Tally) :
    (markExact target guess t).1.all (fun l => l.mark == .correct) ↔ guess <+: target := by
  induction guess generalizing target t with
  | nil => simp [markExact]
  | cons c guess ih =>
      rw [markExact]
      split
      · next hhead =>
        obtain ⟨rest, rfl⟩ := List.head?_eq_some_iff.1 hhead
        simp [ih]
      · next hhead =>
        have hother : ¬c :: guess <+: target := by
          rintro ⟨rest, rfl⟩
          exact hhead rfl
        simp [hother]

/-- The second pass makes no difference to that. -/
theorem all_correct_markPresent (ls : List MarkedLetter) (t : Tally) :
    (markPresent ls t).1.all (fun l => l.mark == .correct) =
      ls.all fun l => l.mark == .correct := by
  have hsame := congrArg (fun ps => ps.all Prod.snd) (correct_markPresent ls t)
  simpa only [List.all_map, Function.comp_def] using hsame

/-- Nothing is marked only if nothing is guessed. -/
theorem isEmpty_mark (target guess : String) : (mark target guess).isEmpty ↔ guess = "" := by
  have hletters := congrArg List.isEmpty (letters_mark target guess)
  rw [List.isEmpty_map] at hletters
  rw [hletters, List.isEmpty_iff, String.toList_eq_nil_iff]

theorem isSolved_mark_iff (target guess : String) :
    isSolved (mark target guess) ↔ guess ≠ "" ∧ guess.toList <+: target.toList := by
  have hall : (mark target guess).all (fun l => l.mark == .correct) ↔
      guess.toList <+: target.toList := by
    rw [mark, all_correct_markPresent]
    exact all_correct_markExact _ _ _
  rw [isSolved, Bool.and_eq_true, hall, Bool.not_eq_true', ← Bool.not_eq_true, isEmpty_mark]

/-- Where lengths agree only the target itself begins with the guess. -/
theorem isSolved_mark_iff_eq {target guess : String} (hlength : guess.length = target.length)
    (hnonempty : guess ≠ "") : isSolved (mark target guess) ↔ guess = target := by
  rw [isSolved_mark_iff]
  constructor
  · rintro ⟨-, hbegins⟩
    exact String.toList_inj.1 (hbegins.eq_of_length hlength)
  · rintro rfl
    exact ⟨hnonempty, List.prefix_refl _⟩

end Marking

/-! ### Guesses that are accepted -/

theorem GuessRules.ne_empty_of_isAlphabetic {word : String} (h : isAlphabetic word) :
    word ≠ "" := by
  rintro rfl
  cases h

namespace Referee

variable {referee : Referee} {room : Room} {round round' : Round} {player : PlayerId}
  {raw : String} {outcome : Outcome}

theorem standingAfter_eq_won_iff {word : String} {attempt : Nat} :
    standingAfter round word attempt = .won ↔ word = round.target := by
  rw [standingAfter]
  by_cases hword : word = round.target
  · simp [hword]
  · rw [if_neg hword]
    split <;> simp [hword]

/-- An accepted guess is put down behind the others. Its marks are those that its player is told,
and they say that the word has been found when it has. -/
theorem solved_of_judge (h : referee.judge room round player raw = .ok (round', outcome)) :
    ∃ guess, round'.guesses = round.guesses ++ [guess] ∧ guess.player = player ∧
      guess.letters = outcome.letters ∧
      (outcome.standing = .won ↔ guess.word = round.target) ∧
      (Marking.isSolved guess.letters ↔ guess.word = round.target) := by
  obtain ⟨-, hcheck, houtcome, hround⟩ := referee.judge_eq_ok_iff.1 h
  obtain ⟨-, hlength, hletters, -⟩ := GuessRules.check_eq_ok_iff.1 hcheck
  have hnonempty := GuessRules.ne_empty_of_isAlphabetic hletters
  -- What the word is does not matter from here on.
  generalize GuessRules.normalize raw = word at hlength hnonempty houtcome hround
  subst houtcome hround
  exact ⟨⟨player, word, round.attemptsUsed player + 1, Marking.mark round.target word,
    referee.clock .guess⟩, rfl, rfl, rfl, standingAfter_eq_won_iff,
    Marking.isSolved_mark_iff_eq hlength hnonempty⟩

end Referee

namespace Duel

variable {duel : Duel}

/-- The marks of every guess say that the word has been found when it has. -/
theorem Reachable.isSolved_iff (h : duel.Reachable) : ∀ round ∈ duel.rounds,
    ∀ guess ∈ round.guesses, Marking.isSolved guess.letters ↔ guess.word = round.target := by
  refine h.forall_round ?_ ?_
  · intro referee duel target _ guess hguess
    cases hguess
  · intro referee room round round' player raw outcome hround hjudge
    obtain ⟨guess, hguesses, -, -, -, hsolved⟩ := Referee.solved_of_judge hjudge
    have htarget : round'.target = round.target := by
      obtain ⟨-, -, -, rfl⟩ := referee.judge_eq_ok_iff.1 hjudge
      rfl
    -- What ends a round changes neither its guesses nor its target.
    have hconcluded : (referee.concluded room round').guesses = round.guesses ++ [guess] ∧
        (referee.concluded room round').target = round.target := by
      rw [Referee.concluded]
      split <;> exact ⟨hguesses, htarget⟩
    rw [hconcluded.1, hconcluded.2]
    intro guess' hguess'
    rcases List.mem_append.1 hguess' with hguess' | hguess'
    · exact hround guess' hguess'
    · rw [List.mem_singleton.1 hguess']
      exact hsolved

/-- A player has won a round when the marks of one of the player's guesses say so. -/
theorem Reachable.won_iff_exists_solved (h : duel.Reachable) {round : Round}
    (hround : round ∈ duel.rounds) {player : PlayerId} {standing : Standing}
    (hstanding : round.standingOf? player = some standing) :
    standing = .won ↔ ∃ guess ∈ round.guessesBy player, Marking.isSolved guess.letters := by
  have hborne := (h.ledger round hround).borne player standing hstanding
  have hsolved {guess : Guess} (hguess : guess ∈ round.guessesBy player) :
      Marking.isSolved guess.letters ↔ guess.word = round.target :=
    h.isSolved_iff round hround guess (Round.mem_guesses_of_mem_guessesBy hguess)
  rw [hborne.won_iff]
  constructor
  · rintro ⟨last, hlast, hword⟩
    have hmem := List.mem_of_getLast? hlast
    exact ⟨last, hmem, (hsolved hmem).2 hword⟩
  · rintro ⟨guess, hguess, hmarks⟩
    have hword := (hsolved hguess).1 hmarks
    -- No guess but the last is the word.
    rcases hborne.cases with ⟨hnone, -⟩ | ⟨earlier, last, hguesses, hearlier, -⟩
    · rw [hnone] at hguess
      cases hguess
    · rw [hguesses] at hguess ⊢
      rcases List.mem_append.1 hguess with hguess | hguess
      · exact (hearlier guess hguess hword).elim
      · rw [List.mem_singleton.1 hguess] at hword
        exact ⟨last, List.getLast?_concat, hword⟩

/-- The marks of a guess say that the word has been found when there is a guess and the target
begins with it; so if the guess is as long as the target and has a letter, when it is the target.
On every guess that is accepted they agree with the referee, who compares the words. And however a
duel has come about, a player has won a round when the marks of some guess of the player say so. -/
theorem solved_iff_won :
    (∀ target guess : String,
      Marking.isSolved (Marking.mark target guess) ↔
        guess ≠ "" ∧ guess.toList <+: target.toList) ∧
    (∀ target guess : String, guess.length = target.length → 1 ≤ guess.length →
      (Marking.isSolved (Marking.mark target guess) ↔ guess = target)) ∧
    (∀ (referee : Referee) (room : Room) (round round' : Round) (player : PlayerId) (raw : String)
      (outcome : Outcome), referee.judge room round player raw = .ok (round', outcome) →
      (Marking.isSolved outcome.letters ↔ outcome.standing = .won) ∧
        ∃ guess, round'.guesses = round.guesses ++ [guess] ∧ guess.letters = outcome.letters) ∧
    ∀ duel : Duel, duel.Reachable → ∀ round ∈ duel.rounds, ∀ player ∈ duel.room.players,
      (round.standingOf? player = some .won ↔
        ∃ guess ∈ round.guessesBy player, Marking.isSolved guess.letters) := by
  refine ⟨Marking.isSolved_mark_iff, ?_, ?_, ?_⟩
  · intro target guess hlength hsome
    refine Marking.isSolved_mark_iff_eq hlength ?_
    rintro rfl
    cases hsome
  · intro referee room round round' player raw outcome hjudge
    obtain ⟨guess, hguesses, -, hletters, hwon, hsolved⟩ := Referee.solved_of_judge hjudge
    exact ⟨by rw [← hletters, hsolved, hwon], guess, hguesses, hletters⟩
  · intro duel hreachable round hround player hplayer
    have hstands := ((hreachable.wellFormed.standings round hround).2 player).2 hplayer
    obtain ⟨standing, hstanding⟩ := Option.isSome_iff_exists.1 hstands
    rw [hstanding, Option.some.injEq]
    exact hreachable.won_iff_exists_solved hround hstanding

/-- A target that begins with the guess, a guess that misses the target by a letter, a guess that is
accepted, and the winner of the first of two rounds. -/
theorem solved_iff_won_of_two_rounds :
    Marking.isSolved (Marking.mark "CRANES" "CRANE") ∧
      ¬Marking.isSolved (Marking.mark "CRANE" "CRANK") ∧
      (∃ round ∈ (Sample.after [.join Sample.bob]).rounds, ∃ round' outcome,
        Sample.referee.judge (Sample.after [.join Sample.bob]).room round Sample.bob "crane" =
          .ok (round', outcome) ∧ Marking.isSolved outcome.letters) ∧
      ∃ round ∈ (Sample.after Sample.twoRounds).rounds,
        ∃ guess ∈ round.guessesBy Sample.alice, Marking.isSolved guess.letters := by
  obtain ⟨hbegins, hequal, hjudged, hreached⟩ := solved_iff_won
  refine ⟨(hbegins _ _).2 (by decide), ?_, ?_, ?_⟩
  · rw [hequal "CRANE" "CRANK" rfl (by decide)]
    decide
  · obtain ⟨round, hround, hfound⟩ : ∃ round ∈ (Sample.after [.join Sample.bob]).rounds,
        ((Sample.referee.judge (Sample.after [.join Sample.bob]).room round Sample.bob "crane"
          ).toOption.any fun r => r.2.standing = .won) := by
      decide +kernel
    cases hjudge : Sample.referee.judge (Sample.after [.join Sample.bob]).room round Sample.bob
        "crane" with
    | error failure =>
        rw [hjudge] at hfound
        cases hfound
    | ok judged =>
        rw [hjudge] at hfound
        exact ⟨round, hround, judged.1, judged.2, hjudge,
          (hjudged _ _ _ _ _ _ _ hjudge).1.2 (of_decide_eq_true hfound)⟩
  · obtain ⟨round, hround, hwon⟩ : ∃ round ∈ (Sample.after Sample.twoRounds).rounds,
        round.standingOf? Sample.alice = some .won := by
      decide +kernel
    exact ⟨round, hround, (hreached _ (Sample.reachable_after _) round hround Sample.alice
      (by decide +kernel)).1 hwon⟩

end Duel

end WordDuel
