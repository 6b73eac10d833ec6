import WordDuel.Proofs.Secrecy
import WordDuel.Proofs.Winning
/-!
# WordDuel.Proofs.Race

**A race between the two players is fair.** While both can still guess in the current round,
it makes no difference whose guess is put down first. What a guess is judged to be depends
on nothing that the opponent's guess changes (`Referee.judge_noted`), and the first of the two
guesses never ends the round, since the other player is not done. What is left of the order
is the order of the two guesses in the list (`Referee.noted_comm`).
-/

namespace WordDuel

/-- A round with other guesses. -/
def Round.withGuesses (round : Round) (guesses : List Guess) : Round := { round with guesses }

namespace Referee

variable (referee : Referee)

/-! ### Guesses that are put down -/

/-- What a player is told about a guess. -/
def verdictOn (duel : Duel) (player : PlayerId) (raw : String) : Result (Nat × Outcome) :=
  ((referee.submitGuess player raw).commit? duel).map Prod.fst

/-- A guess as it is put down once it has been judged. -/
def noteOf (player : PlayerId) (raw : String) (outcome : Outcome) : Guess :=
  ⟨player, GuessRules.normalize raw, outcome.attempt, outcome.letters, referee.clock .guess⟩

/-- A round in which a guess has been put down. -/
def noted (round : Round) (player : PlayerId) (raw : String) (outcome : Outcome) : Round :=
  record round (referee.noteOf player raw outcome) outcome.standing

variable {referee} {room : Room} {round : Round} {a b : PlayerId} {ga gb : String}
  {oa ob : Outcome}

theorem noted_of_judge {round' : Round}
    (hjudge : referee.judge room round a ga = .ok (round', oa)) :
    round' = referee.noted round a ga oa :=
  (referee.judge_eq_ok_iff.1 hjudge).2.2.2

theorem guessesBy_noted (player : PlayerId) :
    (referee.noted round a ga oa).guessesBy player =
      if a = player then round.guessesBy player ++ [referee.noteOf a ga oa]
      else round.guessesBy player :=
  Round.guessesBy_record _ _

theorem standingOf?_noted (player : PlayerId) :
    (referee.noted round a ga oa).standingOf? player =
      if oa.standing.isTerminal ∧ player = a then some oa.standing
      else round.standingOf? player :=
  standingOf?_record _ _

/-! ### The opponent's guess changes nothing -/

/-- Whether a player may guess does not depend on what the opponent has guessed. -/
theorem barred?_noted (hne : a ≠ b) : barred? (referee.noted round b gb ob) a = barred? round a := by
  have hstanding : (referee.noted round b gb ob).standingOf? a = round.standingOf? a := by
    rw [standingOf?_noted, if_neg fun hdone => hne hdone.2]
  have hused : (referee.noted round b gb ob).attemptsUsed a = round.attemptsUsed a := by
    rw [Round.attemptsUsed, guessesBy_noted, if_neg (Ne.symm hne)]
    rfl
  have hlimit : (referee.noted round b gb ob).maxAttempts = round.maxAttempts := rfl
  rw [barred?, barred?, hstanding, hused, hlimit]

/-- A guess is judged as it would be without the opponent's guess. -/
theorem judge_noted (hne : a ≠ b) :
    referee.judge room (referee.noted round b gb ob) a ga =
      (referee.judge room round a ga).map fun judged =>
        (referee.noted (referee.noted round b gb ob) a ga judged.2, judged.2) := by
  have hused : (referee.noted round b gb ob).attemptsUsed a = round.attemptsUsed a := by
    rw [Round.attemptsUsed, guessesBy_noted, if_neg (Ne.symm hne)]
    rfl
  have htarget : (referee.noted round b gb ob).target = round.target := rfl
  rw [judge, judge, barred?_noted hne, htarget, hused]
  unfold noted noteOf
  -- What the word is does not matter.
  generalize GuessRules.normalize ga = word
  cases barred? round a with
  | some refusal => rfl
  | none =>
      dsimp only
      cases GuessRules.check referee.dictionary referee.rules.wordLength word round.target
        (some room.language) <;> rfl

/-- Two guesses of different players change how the players stand in either order alike. -/
theorem standings_noted_comm (hne : a ≠ b) :
    (referee.noted (referee.noted round a ga oa) b gb ob).standings =
      (referee.noted (referee.noted round b gb ob) a ga oa).standings := by
  apply SortedMap.ext_get?
  intro player
  show (referee.noted (referee.noted round a ga oa) b gb ob).standingOf? player =
    (referee.noted (referee.noted round b gb ob) a ga oa).standingOf? player
  simp only [standingOf?_noted]
  by_cases ha : player = a
  · simp [ha, hne]
  · simp [ha]

/-- Two guesses of different players, put down in either order, make the same round but for
their order in the list. -/
theorem noted_comm (hne : a ≠ b) :
    referee.noted (referee.noted round a ga oa) b gb ob =
      (referee.noted (referee.noted round b gb ob) a ga oa).withGuesses
        (round.guesses ++ [referee.noteOf a ga oa] ++ [referee.noteOf b gb ob]) := by
  exact congrArg (fun standings => { round with
    standings
    guesses := round.guesses ++ [referee.noteOf a ga oa] ++ [referee.noteOf b gb ob] })
    (standings_noted_comm hne)

/-! ### The first guess does not end the round -/

theorem settled_setRound (duel : Duel) {first second : Round} (hnumber : first.number = second.number) :
    referee.settled (duel.setRound first) second = referee.settled duel second := by
  have hended : first.number = (referee.ended second).number := hnumber
  rw [settled, settled, Duel.room_setRound, Duel.setRound_setRound duel hnumber,
    Duel.setRound_setRound duel hended]

/-- A player who can still guess is not done because somebody else has guessed. -/
theorem allDone_noted (hne : a ≠ b) (hb : b ∈ room.players)
    (hplaying : round.standingOf? b = some .playing) :
    allDone room (referee.noted round a ga oa) = false := by
  rw [allDone, List.all_eq_false]
  refine ⟨b, hb, ?_⟩
  rw [Round.isDone, standingOf?_noted, if_neg fun hdone => hne hdone.2.symm, hplaying]
  simp [Standing.isTerminal]

/-- What comes of a guess in the round that is being played. -/
theorem guess_of_playing (referee : Referee) {duel : Duel} (ga : String)
    (hplayable : unplayable? duel a = none)
    (hcurrent : duel.currentRound? = some round) (hplaying : round.isFinished = false) :
    referee.verdictOn duel a ga =
        (referee.judge duel.room round a ga).map (fun judged => (round.number, judged.2)) ∧
      (Ply.mk referee (.guess a ga)).after duel =
        (referee.judge duel.room round a ga).toOption.elim duel
          (fun judged => referee.settled duel judged.1) ∧
      (Ply.mk referee (.guess a ga)).events duel =
        (referee.judge duel.room round a ga).toOption.elim []
          (fun judged => guessEvents duel.room judged.1 judged.2) := by
  rw [verdictOn, Ply.after, Ply.events, Ply.play?, Change.move, Move.commit?_bind_pure]
  cases hjudge : referee.judge duel.room round a ga with
  | ok judged =>
      rw [Duel.commit?_submitGuess_of_judge hplayable hcurrent hplaying hjudge]
      exact ⟨rfl, rfl, rfl⟩
  | error failure =>
      have hfails : (referee.submitGuess a ga).commit? duel = .error failure := by
        rw [commit?_submitGuess, hplayable, Duel.active?_of_playing hcurrent hplaying]
        dsimp only
        rw [hjudge]
        rfl
      rw [hfails]
      exact ⟨rfl, rfl, rfl⟩

/-- A guess that is refused whoever makes it leaves the duel alone. -/
theorem guess_of_unplayable (referee : Referee) {duel : Duel} (ga : String) {refusal : Refusal}
    (hunplayable : unplayable? duel a = some refusal) :
    referee.verdictOn duel a ga = .error (.refused refusal) ∧
      (Ply.mk referee (.guess a ga)).after duel = duel ∧
      (Ply.mk referee (.guess a ga)).events duel = [] := by
  have hfails : (referee.submitGuess a ga).commit? duel = .error (.refused refusal) := by
    rw [commit?_submitGuess, hunplayable]
  rw [verdictOn, Ply.after, Ply.events, Ply.play?, Change.move, Move.commit?_bind_pure, hfails]
  exact ⟨rfl, rfl, rfl⟩

/-- What is announced because of the guess of a player who is done with it, or is not. -/
def pointsEvents (room : Room) (outcome : Outcome) : List Event :=
  if outcome.standing.isTerminal then [.scoresUpdated room.scoreboard] else []

/-- The points are announced twice if both players are done, in either order alike. -/
theorem pointsEvents_comm (room : Room) (oa ob : Outcome) :
    pointsEvents room oa ++ pointsEvents room ob = pointsEvents room ob ++ pointsEvents room oa := by
  unfold pointsEvents
  split <;> split <;> rfl

/-- What is announced because the round has ended, or has not. -/
def endEvents (room : Room) (round : Round) : List Event :=
  if allDone room round then [.roundFinished round.number, .scoresUpdated (pay room round).scoreboard]
  else []

theorem guessEvents_eq (room : Room) (round : Round) (outcome : Outcome) :
    guessEvents room round outcome = pointsEvents room outcome ++ endEvents room round := rfl

end Referee

namespace Duel

variable {referee : Referee} {duel : Duel} {round : Round} {a b : PlayerId} {ga gb : String}

/-! ### Two guesses, one after the other -/

/-- The first of two guesses, if it is put down. -/
theorem first_guess (h : duel.WellFormed) (hplayable : Referee.unplayable? duel a = none)
    (hcurrent : duel.currentRound? = some round) (hplaying : round.isFinished = false)
    (hne : a ≠ b) (hb : round.standingOf? b = some .playing) {judged : Round × Outcome}
    (hjudge : referee.judge duel.room round a ga = .ok judged) :
    (Ply.mk referee (.guess a ga)).after duel =
        duel.setRound (referee.noted round a ga judged.2) ∧
      (Ply.mk referee (.guess a ga)).events duel = Referee.pointsEvents duel.room judged.2 := by
  have hmember : b ∈ duel.room.players :=
    ((h.standings round (h.mem_rounds hcurrent)).2 b).1 (by rw [hb]; rfl)
  have hgoesOn : Referee.allDone duel.room (referee.noted round a ga judged.2) = false :=
    Referee.allDone_noted hne hmember hb
  obtain ⟨-, hafter, hevents⟩ := referee.guess_of_playing ga hplayable hcurrent hplaying
  rw [hjudge] at hafter hevents
  have hnoted := Referee.noted_of_judge hjudge
  constructor
  · rw [hafter]
    show referee.settled duel judged.1 = _
    rw [hnoted, Referee.settled, hgoesOn]
    rfl
  · rw [hevents]
    show Referee.guessEvents duel.room judged.1 judged.2 = _
    rw [hnoted, Referee.guessEvents_eq, Referee.endEvents, hgoesOn]
    exact List.append_nil _

/-- The second guess, after one of the other player has been put down. -/
theorem second_guess (referee : Referee) (ga gb : String)
    (hplayable : Referee.unplayable? duel b = none)
    (hcurrent : duel.currentRound? = some round) (hplaying : round.isFinished = false)
    (hne : a ≠ b) (oa : Outcome) :
    referee.verdictOn (duel.setRound (referee.noted round a ga oa)) b gb =
        referee.verdictOn duel b gb ∧
      (Ply.mk referee (.guess b gb)).after (duel.setRound (referee.noted round a ga oa)) =
        (referee.judge duel.room round b gb).toOption.elim
          (duel.setRound (referee.noted round a ga oa))
          (fun judged => referee.settled duel
            (referee.noted (referee.noted round a ga oa) b gb judged.2)) ∧
      (Ply.mk referee (.guess b gb)).events (duel.setRound (referee.noted round a ga oa)) =
        (referee.judge duel.room round b gb).toOption.elim []
          (fun judged => Referee.guessEvents duel.room
            (referee.noted (referee.noted round a ga oa) b gb judged.2) judged.2) := by
  have hcurrent' : (duel.setRound (referee.noted round a ga oa)).currentRound? =
      some (referee.noted round a ga oa) := currentRound?_setRound hcurrent rfl
  have hplayable' : Referee.unplayable? (duel.setRound (referee.noted round a ga oa)) b = none :=
    hplayable
  obtain ⟨hverdict, hafter, hevents⟩ := referee.guess_of_playing gb hplayable' hcurrent' hplaying
  obtain ⟨hverdict', -, -⟩ := referee.guess_of_playing gb hplayable hcurrent hplaying
  rw [hverdict, hafter, hevents, hverdict', room_setRound, Referee.judge_noted (Ne.symm hne)]
  cases referee.judge duel.room round b gb with
  | error failure => exact ⟨rfl, rfl, rfl⟩
  | ok judged => exact ⟨rfl, Referee.settled_setRound duel rfl, rfl⟩

/-- What a round comes to does not depend on the order of its guesses. -/
theorem WellFormed.settled_withGuesses (h : duel.WellFormed) (referee : Referee) {last : Round}
    (round : Round) (hcurrent : duel.currentRound? = some last)
    (hnumber : round.number = last.number) (guesses : List Guess) :
    referee.settled duel (round.withGuesses guesses) =
      ⟨Referee.rewarded duel.room round,
        duel.rounds.dropLast ++ [(referee.concluded duel.room round).withGuesses guesses]⟩ := by
  have hnumber' : (round.withGuesses guesses).number = last.number := hnumber
  rw [h.settled_eq referee hcurrent hnumber', concluded_eq, concluded_eq]
  rfl

/-! ### Either order -/

/-- The guesses of each player are the same whichever of two lists by different players comes
first. -/
theorem guessesBy_withGuesses_comm (hne : a ≠ b) (last : Round) (earlier : List Guess)
    {byA byB : List Guess} (hbyA : ∀ guess ∈ byA, guess.player = a)
    (hbyB : ∀ guess ∈ byB, guess.player = b) (player : PlayerId) :
    (last.withGuesses (earlier ++ byA ++ byB)).guessesBy player =
      (last.withGuesses (earlier ++ byB ++ byA)).guessesBy player := by
  have hnone {c : PlayerId} {guesses : List Guess} (hby : ∀ guess ∈ guesses, guess.player = c)
      (hother : c ≠ player) : guesses.filter (fun guess => guess.player == player) = [] := by
    rw [List.filter_eq_nil_iff]
    intro guess hguess
    rw [hby guess hguess]
    simpa using hother
  simp only [Round.guessesBy, Round.withGuesses, List.filter_append]
  by_cases ha : a = player
  · rw [hnone hbyB fun hb => hne (ha.trans hb.symm), List.append_nil, List.append_nil]
  · rw [hnone hbyA ha, List.append_nil, List.append_nil]

/-- It makes no difference which of two guesses at a round comes first: each player is told
the same, the same is announced, and the room and the rounds are the same in the end, but for
the order in which the two guesses are listed. -/
structure EitherOrder (duel : Duel) (referee : Referee) (round : Round) (a b : PlayerId)
    (ga gb : String) : Prop where
  verdictA : referee.verdictOn ((Ply.mk referee (.guess b gb)).after duel) a ga =
    referee.verdictOn duel a ga
  verdictB : referee.verdictOn ((Ply.mk referee (.guess a ga)).after duel) b gb =
    referee.verdictOn duel b gb
  events : duel.courseEvents [⟨referee, .guess a ga⟩, ⟨referee, .guess b gb⟩] =
    duel.courseEvents [⟨referee, .guess b gb⟩, ⟨referee, .guess a ga⟩]
  /-- The points are part of the room. -/
  room : (duel.course [⟨referee, .guess a ga⟩, ⟨referee, .guess b gb⟩]).room =
    (duel.course [⟨referee, .guess b gb⟩, ⟨referee, .guess a ga⟩]).room
  /-- The rounds before are left alone, and the last one is the same round with the guesses in
  either order. -/
  rounds : ∃ (last : Round) (byA byB : List Guess),
    (duel.course [⟨referee, .guess a ga⟩, ⟨referee, .guess b gb⟩]).rounds =
      duel.rounds.dropLast ++ [last.withGuesses (round.guesses ++ byA ++ byB)] ∧
    (duel.course [⟨referee, .guess b gb⟩, ⟨referee, .guess a ga⟩]).rounds =
      duel.rounds.dropLast ++ [last.withGuesses (round.guesses ++ byB ++ byA)] ∧
    (byA.length ≤ 1 ∧ ∀ guess ∈ byA, guess.player = a) ∧
    (byB.length ≤ 1 ∧ ∀ guess ∈ byB, guess.player = b)

theorem EitherOrder.symm (h : EitherOrder duel referee round a b ga gb) :
    EitherOrder duel referee round b a gb ga where
  verdictA := h.verdictB
  verdictB := h.verdictA
  events := h.events.symm
  room := h.room.symm
  rounds := by
    obtain ⟨last, byA, byB, hfirst, hsecond, hbyA, hbyB⟩ := h.rounds
    exact ⟨last, byB, byA, hsecond, hfirst, hbyB, hbyA⟩

/-- A guess of which nothing comes, before or after that of the other player, might as well
not be made. -/
theorem eitherOrder_of_idle (last : Round) (byB : List Guess)
    (hafter : (Ply.mk referee (.guess a ga)).after duel = duel)
    (hevents : (Ply.mk referee (.guess a ga)).events duel = [])
    (hverdict : referee.verdictOn ((Ply.mk referee (.guess b gb)).after duel) a ga =
      referee.verdictOn duel a ga)
    (hafter' : (Ply.mk referee (.guess a ga)).after ((Ply.mk referee (.guess b gb)).after duel) =
      (Ply.mk referee (.guess b gb)).after duel)
    (hevents' : (Ply.mk referee (.guess a ga)).events ((Ply.mk referee (.guess b gb)).after duel) =
      [])
    (hrounds : ((Ply.mk referee (.guess b gb)).after duel).rounds =
      duel.rounds.dropLast ++ [last.withGuesses (round.guesses ++ byB)])
    (hbyB : byB.length ≤ 1 ∧ ∀ guess ∈ byB, guess.player = b) :
    EitherOrder duel referee round a b ga gb where
  verdictA := hverdict
  verdictB := by rw [hafter]
  events := by simp only [courseEvents, hafter, hevents, hevents', List.nil_append, List.append_nil]
  room := by simp only [course, List.foldl, hafter, hafter']
  rounds := by
    refine ⟨last, [], byB, ?_, ?_, by simp, hbyB⟩
    · simpa only [course, List.foldl, hafter, List.append_nil] using hrounds
    · simpa only [course, List.foldl, hafter', List.append_nil] using hrounds

/-- Who may not play is refused at any time. -/
theorem eitherOrder_of_unplayable (h : duel.WellFormed) (hcurrent : duel.currentRound? = some round)
    {refusalA refusalB : Refusal} (ha : Referee.unplayable? duel a = some refusalA)
    (hb : Referee.unplayable? duel b = some refusalB) :
    EitherOrder duel referee round a b ga gb := by
  obtain ⟨-, hafterA, heventsA⟩ := referee.guess_of_unplayable ga ha
  obtain ⟨-, hafterB, -⟩ := referee.guess_of_unplayable gb hb
  refine eitherOrder_of_idle round [] hafterA heventsA ?_ ?_ ?_ ?_ (by simp)
  · rw [hafterB]
  · rw [hafterB, hafterA]
  · rw [hafterB, heventsA]
  · rw [hafterB, List.append_nil]
    exact h.rounds_eq hcurrent

section Playing

variable (h : duel.WellFormed) (hplayableA : Referee.unplayable? duel a = none)
  (hplayableB : Referee.unplayable? duel b = none) (hcurrent : duel.currentRound? = some round)
  (hplaying : round.isFinished = false) (hne : a ≠ b)
  (ha : round.standingOf? a = some .playing) (hb : round.standingOf? b = some .playing)
include h hplayableA hplayableB hcurrent hplaying hne ha

/-- A guess that is turned down is turned down at any time. -/
theorem eitherOrder_of_error {failure : Failure}
    (hjudge : referee.judge duel.room round a ga = .error failure) :
    EitherOrder duel referee round a b ga gb := by
  obtain ⟨-, hafterA, heventsA⟩ :=
    referee.guess_of_playing ga hplayableA hcurrent hplaying
  rw [hjudge] at hafterA heventsA
  cases hjudgeB : referee.judge duel.room round b gb with
  | error failure' =>
      obtain ⟨-, hafterB, -⟩ :=
        referee.guess_of_playing gb hplayableB hcurrent hplaying
      rw [hjudgeB] at hafterB
      replace hafterB : (Ply.mk referee (.guess b gb)).after duel = duel := hafterB
      refine eitherOrder_of_idle round [] hafterA heventsA ?_ ?_ ?_ ?_ (by simp)
      · rw [hafterB]
      · rw [hafterB]
        exact hafterA
      · rw [hafterB]
        exact heventsA
      · rw [hafterB, List.append_nil]
        exact h.rounds_eq hcurrent
  | ok judged =>
      obtain ⟨hafterB, -⟩ := first_guess h hplayableB hcurrent hplaying (Ne.symm hne) ha hjudgeB
      obtain ⟨hverdict, hafter, hevents⟩ := second_guess referee gb ga hplayableA hcurrent
        hplaying (Ne.symm hne) judged.2
      rw [hjudge] at hafter hevents
      refine eitherOrder_of_idle (referee.noted round b gb judged.2)
        [referee.noteOf b gb judged.2] hafterA heventsA ?_ ?_ ?_ ?_ ⟨Nat.le_refl 1, ?_⟩
      · rw [hafterB]
        exact hverdict
      · rw [hafterB]
        exact hafter
      · rw [hafterB]
        exact hevents
      · rw [hafterB]
        exact h.setRound_eq hcurrent rfl
      · simp [Referee.noteOf]

include hb

/-- If both guesses are put down, the second one ends the round if they leave both players
done. -/
theorem eitherOrder_of_ok {judgedA judgedB : Round × Outcome}
    (hjudgeA : referee.judge duel.room round a ga = .ok judgedA)
    (hjudgeB : referee.judge duel.room round b gb = .ok judgedB) :
    EitherOrder duel referee round a b ga gb := by
  obtain ⟨hafterA, heventsA⟩ := first_guess h hplayableA hcurrent hplaying hne hb hjudgeA
  obtain ⟨hafterB, heventsB⟩ := first_guess h hplayableB hcurrent hplaying (Ne.symm hne) ha hjudgeB
  obtain ⟨hverdictB, hafterAB, heventsAB⟩ := second_guess referee ga gb hplayableB
    hcurrent hplaying hne judgedA.2
  obtain ⟨hverdictA, hafterBA, heventsBA⟩ := second_guess referee gb ga hplayableA
    hcurrent hplaying (Ne.symm hne) judgedB.2
  rw [hjudgeB] at hafterAB heventsAB
  rw [hjudgeA] at hafterBA heventsBA
  rw [← hafterA] at hverdictB hafterAB heventsAB
  rw [← hafterB] at hverdictA hafterBA heventsBA
  -- What the round is in the end, but for the order of its guesses.
  let last := referee.noted (referee.noted round b gb judgedB.2) a ga judgedA.2
  have hlast : referee.noted (referee.noted round a ga judgedA.2) b gb judgedB.2 =
      last.withGuesses (round.guesses ++ [referee.noteOf a ga judgedA.2] ++
        [referee.noteOf b gb judgedB.2]) := Referee.noted_comm hne
  have hsettled (guesses : List Guess) :=
    h.settled_withGuesses referee last hcurrent rfl guesses
  have hendAB : (Ply.mk referee (.guess b gb)).after ((Ply.mk referee (.guess a ga)).after duel) =
      ⟨Referee.rewarded duel.room last, duel.rounds.dropLast ++
        [(referee.concluded duel.room last).withGuesses (round.guesses ++
          [referee.noteOf a ga judgedA.2] ++ [referee.noteOf b gb judgedB.2])]⟩ := by
    rw [hafterAB, ← hsettled, ← hlast]
    rfl
  have hendBA : (Ply.mk referee (.guess a ga)).after ((Ply.mk referee (.guess b gb)).after duel) =
      ⟨Referee.rewarded duel.room last, duel.rounds.dropLast ++
        [(referee.concluded duel.room last).withGuesses (round.guesses ++
          [referee.noteOf b gb judgedB.2] ++ [referee.noteOf a ga judgedA.2])]⟩ := by
    rw [hafterBA, ← hsettled]
    rfl
  have hsaidAB : (Ply.mk referee (.guess b gb)).events
      ((Ply.mk referee (.guess a ga)).after duel) =
        Referee.pointsEvents duel.room judgedB.2 ++ Referee.endEvents duel.room last := by
    rw [heventsAB, ← Referee.guessEvents_eq]
    show Referee.guessEvents duel.room _ _ = _
    rw [hlast]
    rfl
  have hsaidBA : (Ply.mk referee (.guess a ga)).events
      ((Ply.mk referee (.guess b gb)).after duel) =
        Referee.pointsEvents duel.room judgedA.2 ++ Referee.endEvents duel.room last := heventsBA
  refine ⟨hverdictA, hverdictB, ?_, ?_, ?_⟩
  · simp only [courseEvents, heventsA, heventsB, hsaidAB, hsaidBA, List.append_nil]
    rw [← List.append_assoc, ← List.append_assoc, Referee.pointsEvents_comm]
  · simp only [course, List.foldl, hendAB, hendBA]
  · exact ⟨_, [referee.noteOf a ga judgedA.2], [referee.noteOf b gb judgedB.2],
      congrArg Duel.rounds hendAB, congrArg Duel.rounds hendBA,
      by simp [Referee.noteOf], by simp [Referee.noteOf]⟩

end Playing

/-- Each player's own guesses come in the same order. -/
theorem EitherOrder.guessesBy (h : EitherOrder duel referee round a b ga gb) (hne : a ≠ b)
    (player : PlayerId) :
    (duel.course [⟨referee, .guess a ga⟩, ⟨referee, .guess b gb⟩]).rounds.map
        (fun round => round.guessesBy player) =
      (duel.course [⟨referee, .guess b gb⟩, ⟨referee, .guess a ga⟩]).rounds.map
        (fun round => round.guessesBy player) := by
  obtain ⟨last, byA, byB, hfirst, hsecond, ⟨-, hbyA⟩, -, hbyB⟩ := h.rounds
  rw [hfirst, hsecond, List.map_append, List.map_append, List.map_singleton, List.map_singleton,
    guessesBy_withGuesses_comm hne last round.guesses hbyA hbyB]

/-- While two players can still guess in the round that is being played, it makes no difference
which of their guesses is made first. -/
theorem guesses_commute (h : duel.Arises) (referee : Referee)
    (hcurrent : duel.currentRound? = some round) (hplaying : round.isFinished = false)
    (hne : a ≠ b) (ha : round.standingOf? a = some .playing)
    (hb : round.standingOf? b = some .playing) (ga gb : String) :
    EitherOrder duel referee round a b ga gb ∧
      ∀ player,
        (duel.course [⟨referee, .guess a ga⟩, ⟨referee, .guess b gb⟩]).rounds.map
            (fun round => round.guessesBy player) =
          (duel.course [⟨referee, .guess b gb⟩, ⟨referee, .guess a ga⟩]).rounds.map
            (fun round => round.guessesBy player) := by
  have hwf := h.wellFormed
  have hmember {player : PlayerId} (hstanding : round.standingOf? player = some .playing) :
      player ∈ duel.room.players :=
    ((hwf.standings round (hwf.mem_rounds hcurrent)).2 player).1 (by rw [hstanding]; rfl)
  have horder : EitherOrder duel referee round a b ga gb := by
    by_cases hclosed : duel.room.status = .closed
    · have hrefused (player : PlayerId) :
          Referee.unplayable? duel player = some (.roomClosed duel.id) := by
        rw [Referee.unplayable?, if_pos hclosed]
      exact eitherOrder_of_unplayable hwf hcurrent (hrefused a) (hrefused b)
    · have hplayable {player : PlayerId} (hstanding : round.standingOf? player = some .playing) :=
        playable_iff.2 ⟨hmember hstanding, hwf.inProgress_of_currentRound? hcurrent hclosed⟩
      cases hjudgeA : referee.judge duel.room round a ga with
      | error failure =>
          exact eitherOrder_of_error hwf (hplayable ha) (hplayable hb) hcurrent hplaying hne ha
            hjudgeA
      | ok judgedA =>
          cases hjudgeB : referee.judge duel.room round b gb with
          | error failure =>
              exact (eitherOrder_of_error hwf (hplayable hb) (hplayable ha) hcurrent hplaying
                (Ne.symm hne) hb hjudgeB).symm
          | ok judgedB =>
              exact eitherOrder_of_ok hwf (hplayable ha) (hplayable hb) hcurrent hplaying hne ha hb
                hjudgeA hjudgeB
  exact ⟨horder, horder.guessesBy hne⟩

/-- Both have one attempt left or more, and between them end the round: the winner is paid
whoever comes first. -/
theorem guesses_commute_of_last_guesses :
    (Sample.guessed "moist").Arises ∧
    (Sample.guessed "moist").currentRound? = some (Sample.playedRound "moist") ∧
    (Sample.playedRound "moist").standingOf? Sample.alice = some .playing ∧
    (Sample.playedRound "moist").standingOf? Sample.bob = some .playing ∧
    EitherOrder (Sample.guessed "moist") Sample.referee (Sample.playedRound "moist") Sample.alice
      Sample.bob " Crane" "bumpy" ∧
    (((Sample.guessed "moist").course [⟨Sample.referee, .guess Sample.bob "bumpy"⟩,
        ⟨Sample.referee, .guess Sample.alice " Crane"⟩]).rounds.map fun round =>
      (round.status, round.guesses.map Guess.player)) =
        [(RoundStatus.ended, [Sample.bob, Sample.bob, Sample.alice])] ∧
    ((Sample.guessed "moist").course [⟨Sample.referee, .guess Sample.alice " Crane"⟩,
        ⟨Sample.referee, .guess Sample.bob "bumpy"⟩]).room.pointsOf Sample.alice = 1 := by
  have harises : (Sample.guessed "moist").Arises := Sample.arises_after _
  have hcurrent : (Sample.guessed "moist").currentRound? = some (Sample.playedRound "moist") := by
    decide +kernel
  have hplaying : (Sample.playedRound "moist").isFinished = false := by decide +kernel
  have halice : (Sample.playedRound "moist").standingOf? Sample.alice = some .playing := by
    decide +kernel
  have hbob : (Sample.playedRound "moist").standingOf? Sample.bob = some .playing := by
    decide +kernel
  obtain ⟨horder, -⟩ := guesses_commute harises Sample.referee hcurrent hplaying
    (by decide : Sample.alice ≠ Sample.bob) halice hbob " Crane" "bumpy"
  refine ⟨harises, hcurrent, halice, hbob, horder, by decide +kernel, ?_⟩
  rw [horder.room]
  decide +kernel

end Duel

end WordDuel
