import WordDuel.Play.Course
/-!
# WordDuel.Proofs.Effect

**What an attempt does to a duel.** Each move is brought into the form of an equation
that says what it gives on which duel; from these, `Ply.effect_of_play?` lists the five
ways in which an attempt can succeed, each with everything that was checked. What holds
of all duels that can come about is proved from this list, and no proof elsewhere opens
a move.
-/

namespace WordDuel

/-! ### Rounds by number -/

namespace Duel

/-- A duel with one more round, which is the current one. -/
def opened (duel : Duel) (round : Round) : Duel where
  room := { duel.room with currentRound := some round.number }
  rounds := duel.rounds ++ [round]

theorem find?_replaceRound (round : Round) {rounds : List Round}
    (h : (rounds.find? fun r => r.number == round.number).isSome) :
    (replaceRound round rounds).find? (fun r => r.number == round.number) = some round := by
  induction rounds with
  | nil => simp at h
  | cons r rs ih =>
      by_cases hr : r.number == round.number
      · simp [replaceRound, hr]
      · have hrest : (rs.find? fun r => r.number == round.number).isSome := by simpa [hr] using h
        simp [replaceRound, hr, ih hrest]

theorem mem_replaceRound {round r : Round} {rounds : List Round}
    (h : r ∈ replaceRound round rounds) : r = round ∨ r ∈ rounds := by
  induction rounds with
  | nil => cases h
  | cons r' rs ih =>
      rw [replaceRound] at h
      split at h
      · exact (List.mem_cons.1 h).imp_right (List.mem_cons_of_mem _)
      · rcases List.mem_cons.1 h with rfl | h
        · exact .inr List.mem_cons_self
        · exact (ih h).imp_right (List.mem_cons_of_mem _)

theorem replaceRound_replaceRound {a b : Round} (h : a.number = b.number) (rounds : List Round) :
    replaceRound b (replaceRound a rounds) = replaceRound b rounds := by
  induction rounds with
  | nil => rfl
  | cons r rs ih =>
      by_cases hr : r.number == b.number
      · simp [replaceRound, h, hr]
      · simp [replaceRound, h, hr, ih]

@[simp] theorem room_setRound (duel : Duel) (round : Round) :
    (duel.setRound round).room = duel.room := rfl

theorem setRound_setRound (duel : Duel) {a b : Round} (h : a.number = b.number) :
    (duel.setRound a).setRound b = duel.setRound b := by
  simp [setRound, replaceRound_replaceRound h]

theorem number_of_currentRound? {duel : Duel} {round : Round}
    (h : duel.currentRound? = some round) : duel.room.currentRound = some round.number := by
  obtain ⟨n, hn, hround⟩ := Option.bind_eq_some_iff.1 h
  have hnumber := List.find?_some hround
  rw [hn, ← beq_iff_eq.1 hnumber]

/-- A round that takes the place of the current one is the current one. -/
theorem currentRound?_setRound {duel : Duel} {old round : Round}
    (h : duel.currentRound? = some old) (hnumber : round.number = old.number) :
    (duel.setRound round).currentRound? = some round := by
  have hcurrent := number_of_currentRound? h
  have hold : duel.round? round.number = some old := by
    rw [hnumber]
    simpa [currentRound?, hcurrent] using h
  rw [currentRound?, room_setRound, hcurrent, ← hnumber]
  exact find?_replaceRound round (by rw [round?] at hold; rw [hold]; rfl)

/-- The number of a new round is that of no other. -/
theorem number_lt_of_maxRoundNumber? {duel : Duel} {round : Round} (h : round ∈ duel.rounds) :
    round.number < duel.maxRoundNumber?.elim 1 (· + 1) := by
  have hmem : round.number ∈ duel.rounds.map Round.number := List.mem_map_of_mem h
  rw [maxRoundNumber?]
  cases hmax : (duel.rounds.map Round.number).max? with
  | none => simp [List.max?_eq_none_iff.1 hmax] at hmem
  | some n => exact Nat.lt_succ_of_le ((List.max?_eq_some_iff.1 hmax).2 _ hmem)

end Duel

namespace Referee

variable (referee : Referee)

/-! ### Opening a round -/

/-- The round that would be opened, unless none can be. -/
def opening? (duel : Duel) : Result Round :=
  if duel.room.players.length ≠ maxPlayers then .error (.refused (.roomNotReady duel.id))
  else (referee.pickTarget duel.room.language).map (referee.newRound duel)

theorem on_openRound (draft : Draft) :
    referee.openRound.on draft =
      match referee.opening? draft.duel with
      | .ok round =>
        (.ok round.number, ⟨draft.duel.opened round,
          draft.events ++ [.roundStarted round.number round.maxAttempts]⟩)
      | .error failure => (.error failure, draft) := by
  by_cases hready : draft.duel.room.players.length = maxPlayers
  · cases htarget : referee.pickTarget draft.duel.room.language with
    | error failure => simp [openRound, opening?, Move.on_bind, hready, htarget, Except.map]
    | ok target =>
        simp [openRound, opening?, Move.on_bind, Move.on_map, hready, htarget, Except.map,
          Duel.opened]
  · simp [openRound, opening?, Move.on_bind, hready]

/-! ### The round that a guess goes to -/

/-- A round that is being played: the duel it is in, the round, and what had to be
announced to get there. -/
structure Active where
  /-- The duel in which the round is the current one. -/
  duel : Duel
  round : Round
  /-- The announcement of the round, if it had to be opened. -/
  events : List Event

/-- The round that a guess in a duel goes to, unless none is being played and none can
be opened. -/
def active? (duel : Duel) : Result Active :=
  match duel.currentRound?.filter (!·.isFinished) with
  | some round => .ok ⟨duel, round, []⟩
  | none =>
    (referee.opening? duel).map fun round =>
      ⟨duel.opened round, round, [.roundStarted round.number round.maxAttempts]⟩

/-- What a round can be opened with, and the round that is opened. -/
theorem opening?_eq_ok_iff {duel : Duel} {round : Round} :
    referee.opening? duel = .ok round ↔
      duel.room.players.length = maxPlayers ∧
        ∃ target, referee.pickTarget duel.room.language = .ok target ∧
          round = referee.newRound duel target := by
  by_cases hready : duel.room.players.length = maxPlayers
  · cases htarget : referee.pickTarget duel.room.language with
    | error failure => simp [opening?, hready, htarget, Except.map]
    | ok target => simp [opening?, hready, htarget, Except.map, eq_comm]
  · simp [opening?, hready]

/-- A round that has just been opened is the current one: no other has its number. -/
theorem currentRound?_opened {duel : Duel} {round : Round}
    (h : referee.opening? duel = .ok round) : (duel.opened round).currentRound? = some round := by
  obtain ⟨-, target, -, rfl⟩ := referee.opening?_eq_ok_iff.1 h
  have hfresh : duel.rounds.find? (fun r => r.number == (referee.newRound duel target).number) =
      none := by
    rw [List.find?_eq_none]
    intro r hr heq
    have hlt := Duel.number_lt_of_maxRoundNumber? hr
    rw [beq_iff_eq.1 heq] at hlt
    exact Nat.lt_irrefl _ hlt
  simp [Duel.currentRound?, Duel.opened, Duel.round?, List.find?_append, hfresh]

/-- A round is being played already, or it has just been opened. -/
theorem active?_cases {duel : Duel} {active : Active} (h : referee.active? duel = .ok active) :
    (duel.currentRound? = some active.round ∧ active.round.isFinished = false ∧
      active = ⟨duel, active.round, []⟩) ∨
    (duel.currentRound?.all Round.isFinished ∧ referee.opening? duel = .ok active.round ∧
      active = ⟨duel.opened active.round, active.round,
        [.roundStarted active.round.number active.round.maxAttempts]⟩) := by
  rw [active?] at h
  split at h
  · next round hround =>
    obtain rfl := Except.ok.inj h
    obtain ⟨hcurrent, hplaying⟩ := Option.filter_eq_some_iff.1 hround
    exact .inl ⟨hcurrent, by simpa using hplaying, rfl⟩
  · next hround =>
    cases hopen : referee.opening? duel with
    | error failure => rw [hopen] at h; cases h
    | ok round =>
        rw [hopen] at h
        obtain rfl := Except.ok.inj h
        refine .inr ⟨?_, rfl, rfl⟩
        cases hcurrent : duel.currentRound? with
        | none => rfl
        | some r => simpa [hcurrent, Option.filter] using hround

theorem opening?_of_active? {duel : Duel} {failure : Failure}
    (h : referee.active? duel = .error failure) : referee.opening? duel = .error failure := by
  rw [active?] at h
  split at h
  · cases h
  · cases hopen : referee.opening? duel with
    | error failure' =>
        rw [hopen] at h
        rw [Except.error.inj h]
    | ok round =>
        rw [hopen] at h
        cases h

theorem language_active? {duel : Duel} {active : Active} (h : referee.active? duel = .ok active) :
    active.duel.room.language = duel.room.language := by
  rcases referee.active?_cases h with ⟨-, -, hsame⟩ | ⟨-, -, hopened⟩
  · rw [hsame]
  · rw [hopened]
    rfl

theorem currentRound?_active? {duel : Duel} {active : Active}
    (h : referee.active? duel = .ok active) : active.duel.currentRound? = some active.round := by
  rcases referee.active?_cases h with ⟨hcurrent, -, hactive⟩ | ⟨-, hopen, hactive⟩
  · rw [hactive]
    exact hcurrent
  · rw [hactive]
    exact referee.currentRound?_opened hopen

/-- The round that is being played has not ended. -/
theorem isFinished_active? {duel : Duel} {active : Active}
    (h : referee.active? duel = .ok active) : active.round.isFinished = false := by
  rcases referee.active?_cases h with ⟨-, hplaying, -⟩ | ⟨-, hopen, -⟩
  · exact hplaying
  · obtain ⟨-, target, -, hround⟩ := referee.opening?_eq_ok_iff.1 hopen
    rw [hround]
    rfl

theorem on_currentRound (draft : Draft) :
    currentRound.on draft =
      match draft.duel.currentRound? with
      | some round => (.ok round, draft)
      | none => (.error (.storage (.noCurrentRound draft.duel.id)), draft) := by
  cases h : draft.duel.currentRound? <;> simp [currentRound, Move.on_bind, h]

theorem on_ensureActiveRound (draft : Draft) :
    referee.ensureActiveRound.on draft =
      match referee.active? draft.duel with
      | .ok active => (.ok active.round, ⟨active.duel, draft.events ++ active.events⟩)
      | .error failure => (.error failure, draft) := by
  rw [ensureActiveRound, active?]
  cases hround : draft.duel.currentRound?.filter (!·.isFinished) with
  | some round =>
      obtain ⟨hcurrent, hplaying⟩ := Option.filter_eq_some_iff.1 hround
      have hfinished : round.isFinished = false := by simpa using hplaying
      simp [Move.on_bind, on_currentRound, hcurrent, hfinished]
  | none =>
      have hended : draft.duel.currentRound?.all Round.isFinished = true := by
        cases hcurrent : draft.duel.currentRound? with
        | none => rfl
        | some round => simpa [hcurrent, Option.filter] using hround
      cases hopen : referee.opening? draft.duel with
      | error failure =>
          simp [Move.on_bind, hended, on_openRound, hopen, Except.map]
      | ok round =>
          simp [Move.on_bind, hended, on_openRound, hopen, Except.map, on_currentRound,
            referee.currentRound?_opened hopen]

/-! ### Guessing -/

/-- A duel after a guess has been put down in its current round, which ends if that
leaves every player done. -/
def settled (duel : Duel) (round : Round) : Duel :=
  if allDone duel.room round then
    { duel.setRound (referee.ended round) with room := pay duel.room round }
  else duel.setRound round

/-- A round after a guess has been put down in it: it ends if that leaves every player
done. -/
def concluded (room : Room) (round : Round) : Round :=
  if allDone room round then referee.ended round else round

/-- A room after a guess has been put down in a round of it: the winners are paid if the
round ends. -/
def rewarded (room : Room) (round : Round) : Room :=
  if allDone room round then pay room round else room

/-- What is announced because of a guess in a room: the points if the player is done,
and the end of the round if all are. -/
def guessEvents (room : Room) (round : Round) (outcome : Outcome) : List Event :=
  (if outcome.standing.isTerminal then [.scoresUpdated room.scoreboard] else []) ++
    if allDone room round then
      [.roundFinished round.number, .scoresUpdated (pay room round).scoreboard]
    else []

/-- Everything that a guess passes before it is put down, and what is then put down. -/
theorem judge_eq_ok_iff {room : Room} {round round' : Round} {player : PlayerId} {raw : String}
    {outcome : Outcome} :
    referee.judge room round player raw = .ok (round', outcome) ↔
      barred? round player = none ∧
      GuessRules.check referee.dictionary referee.rules.wordLength (GuessRules.normalize raw)
        round.target (some room.language) = .ok () ∧
      outcome = ⟨round.attemptsUsed player + 1,
        Marking.mark round.target (GuessRules.normalize raw),
        standingAfter round (GuessRules.normalize raw) (round.attemptsUsed player + 1)⟩ ∧
      round' = record round ⟨player, GuessRules.normalize raw, outcome.attempt, outcome.letters,
        referee.clock .guess⟩ outcome.standing := by
  rw [judge]
  cases hbarred : barred? round player with
  | some refusal => simp
  | none =>
      cases hcheck : GuessRules.check referee.dictionary referee.rules.wordLength
          (GuessRules.normalize raw) round.target (some room.language) with
      | error failure => simp [hcheck]
      | ok _ =>
          simp only [hcheck, Except.ok.injEq, Prod.mk.injEq, true_and]
          constructor
          · rintro ⟨hround, houtcome⟩
            subst houtcome
            refine ⟨rfl, ?_⟩
            dsimp only
            exact hround.symm
          · rintro ⟨houtcome, hround⟩
            subst houtcome
            refine ⟨?_, rfl⟩
            dsimp only at hround
            exact hround.symm

/-- A guess is turned down because its player is barred, or by the check. -/
theorem judge_eq_error {room : Room} {round : Round} {player : PlayerId} {raw : String}
    {failure : Failure} (h : referee.judge room round player raw = .error failure) :
    (∃ refusal, barred? round player = some refusal ∧ failure = .refused refusal) ∨
      GuessRules.check referee.dictionary referee.rules.wordLength (GuessRules.normalize raw)
        round.target (some room.language) = .error failure := by
  rw [judge] at h
  split at h
  · next refusal hbarred => exact .inl ⟨refusal, hbarred, (Except.error.inj h).symm⟩
  · dsimp only at h
    split at h
    · next failure' hcheck => exact .inr (hcheck.trans (congrArg _ (Except.error.inj h)))
    · cases h

section Judged

variable {referee} {room : Room} {round round' : Round} {player : PlayerId} {raw : String}
  {outcome : Outcome}

theorem number_of_judge (h : referee.judge room round player raw = .ok (round', outcome)) :
    round'.number = round.number := by
  obtain ⟨-, -, -, rfl⟩ := referee.judge_eq_ok_iff.1 h
  rfl

theorem status_of_judge (h : referee.judge room round player raw = .ok (round', outcome)) :
    round'.status = round.status := by
  obtain ⟨-, -, -, rfl⟩ := referee.judge_eq_ok_iff.1 h
  rfl

/-- Who is not barred can still guess, and has a guess left. -/
theorem barred?_eq_none_iff :
    barred? round player = none ↔
      round.standingOf? player = some .playing ∧ round.attemptsUsed player < round.maxAttempts := by
  rw [barred?]
  cases hstanding : round.standingOf? player with
  | none => simp
  | some standing =>
      cases standing with
      | playing =>
          by_cases hused : round.maxAttempts < round.attemptsUsed player + 1
          · have hnone : ¬round.attemptsUsed player < round.maxAttempts := by omega
            simp [Standing.isTerminal, hused, hnone]
          · have hleft : round.attemptsUsed player < round.maxAttempts := by omega
            simp [Standing.isTerminal, hused, hleft]
      | won => simp [Standing.isTerminal]
      | lost => simp [Standing.isTerminal]

theorem standingOf?_record (guess : Guess) (standing : Standing) :
    (record round guess standing).standingOf? player =
      if standing.isTerminal ∧ player = guess.player then some standing
      else round.standingOf? player := by
  by_cases hdone : standing.isTerminal
  · by_cases hplayer : player = guess.player
    · simp [record, Round.standingOf?, hdone, hplayer]
    · simp [record, Round.standingOf?, hdone, hplayer, SortedMap.get?_insert_of_ne _ _ hplayer]
  · simp [record, Round.standingOf?, hdone]

end Judged

/-- The winners get a point each, and nobody else's points change. -/
theorem get?_scores_pay (room : Room) (round : Round) (player : PlayerId) :
    (pay room round).scores.get? player =
      if round.standingOf? player = some .won then some (room.pointsOf player + 1)
      else room.scores.get? player := by
  have hfold := SortedMap.get?_foldl_insert (fun points : Option Int => points.getD 0 + 1)
    round.standings.sorted (fun standing : Standing => decide (standing = .won)) room.scores player
  simp only [decide_eq_true_eq] at hfold
  rw [pay, hfold]
  show (if (round.standingOf? player).any _ then _ else _) = _
  rcases hstanding : round.standingOf? player with _ | (_ | _ | _) <;> simp [Room.pointsOf]

theorem on_ensurePlayable (player : PlayerId) (draft : Draft) :
    (ensurePlayable player).on draft =
      match unplayable? draft.duel player with
      | some refusal => (.error (.refused refusal), draft)
      | none => (.ok (), draft) := by
  cases h : unplayable? draft.duel player <;> simp [ensurePlayable, Move.on_bind, h]

theorem on_guessInCurrentRound {player : PlayerId} {raw : String} {draft : Draft} {round : Round}
    (hcurrent : draft.duel.currentRound? = some round) :
    (referee.guessInCurrentRound player raw).on draft =
      match referee.judge draft.duel.room round player raw with
      | .error failure => (.error failure, draft)
      | .ok (round', outcome) =>
        (.ok outcome, ⟨draft.duel.setRound round', draft.events ++
          if outcome.standing.isTerminal then [.scoresUpdated draft.duel.room.scoreboard]
          else []⟩) := by
  cases hjudge : referee.judge draft.duel.room round player raw with
  | error failure =>
      simp [guessInCurrentRound, Move.on_bind, on_currentRound, hcurrent, hjudge]
  | ok judged =>
      by_cases hdone : judged.2.standing.isTerminal <;>
        simp [guessInCurrentRound, Move.on_bind, Move.on_map, on_currentRound, hcurrent, hjudge,
          hdone, Except.map]

theorem on_finishCurrentRound {draft : Draft} {round : Round}
    (hcurrent : draft.duel.currentRound? = some round) (hplaying : round.isFinished = false) :
    referee.finishCurrentRound.on draft =
      (.ok true, ⟨{ draft.duel.setRound (referee.ended round) with
          room := pay draft.duel.room round },
        draft.events ++ [.roundFinished round.number,
          .scoresUpdated (pay draft.duel.room round).scoreboard]⟩) := by
  simp [finishCurrentRound, Move.on_bind, Move.on_map, on_currentRound, hcurrent, hplaying,
    Except.map]

/-- What a guess gives, and what it adds to the events. -/
theorem commit?_submitGuess (player : PlayerId) (raw : String) (duel : Duel) :
    (referee.submitGuess player raw).commit? duel =
      match unplayable? duel player with
      | some refusal => .error (.refused refusal)
      | none =>
        match referee.active? duel with
        | .error failure => .error failure
        | .ok active =>
          (referee.judge active.duel.room active.round player raw).map fun judged =>
            ((judged.1.number, judged.2), referee.settled active.duel judged.1,
              active.events ++ guessEvents active.duel.room judged.1 judged.2) := by
  cases hplayable : unplayable? duel player with
  | some refusal => simp [submitGuess, Move.commit?, Move.on_bind, on_ensurePlayable, hplayable]
  | none =>
    cases hactive : referee.active? duel with
    | error failure =>
        simp [submitGuess, Move.commit?, Move.on_bind, on_ensurePlayable, on_ensureActiveRound,
          hplayable, hactive]
    | ok active =>
      have hcurrent := referee.currentRound?_active? hactive
      cases hjudge : referee.judge active.duel.room active.round player raw with
      | error failure =>
          simp [submitGuess, Move.commit?, Move.on_bind, on_ensurePlayable, on_ensureActiveRound,
            hplayable, hactive, on_guessInCurrentRound, hcurrent, hjudge, Except.map]
      | ok judged =>
        obtain ⟨round, outcome⟩ := judged
        have hnumber := number_of_judge hjudge
        have hplaying : round.isFinished = false := by
          rw [Round.isFinished, status_of_judge hjudge]
          exact referee.isFinished_active? hactive
        have hround := Duel.currentRound?_setRound hcurrent hnumber
        have hended : (referee.ended round).number = round.number := rfl
        by_cases hall : allDone active.duel.room round
        · simp [submitGuess, Move.commit?, Move.on_bind, Move.on_map, on_ensurePlayable,
            on_ensureActiveRound, on_currentRound, hplayable, hactive, on_guessInCurrentRound,
            hcurrent, hjudge, hround, hall, referee.on_finishCurrentRound, hplaying, Except.map,
            settled, guessEvents, Duel.setRound_setRound _ hended.symm]
        · simp [submitGuess, Move.commit?, Move.on_bind, on_ensurePlayable, on_ensureActiveRound,
            on_currentRound, hplayable, hactive, on_guessInCurrentRound, hcurrent, hjudge, hround,
            hall, Except.map, settled, guessEvents]

/-- The ways in which a guess can fail. -/
theorem submitGuess_eq_error {player : PlayerId} {raw : String} {duel : Duel} {failure : Failure}
    (h : (referee.submitGuess player raw).commit? duel = .error failure) :
    (∃ refusal, unplayable? duel player = some refusal ∧ failure = .refused refusal) ∨
      referee.opening? duel = .error failure ∨
      ∃ active, referee.active? duel = .ok active ∧
        referee.judge active.duel.room active.round player raw = .error failure := by
  rw [commit?_submitGuess] at h
  split at h
  · next refusal hunplayable => exact .inl ⟨refusal, hunplayable, (Except.error.inj h).symm⟩
  · split at h
    · next failure' hactive =>
      obtain rfl := Except.error.inj h
      exact .inr (.inl (referee.opening?_of_active? hactive))
    · next active hactive =>
      refine .inr (.inr ⟨active, hactive, ?_⟩)
      cases hjudge : referee.judge active.duel.room active.round player raw with
      | ok judged =>
          rw [hjudge] at h
          cases h
      | error failure' =>
          rw [hjudge] at h
          rw [Except.error.inj h]

/-! ### Asking for the next round -/

/-- What asking for the next round gives. -/
theorem commit?_startNewRound (player : PlayerId) (duel : Duel) :
    (referee.startNewRound player).commit? duel =
      match unplayable? duel player with
      | some refusal => .error (.refused refusal)
      | none => (referee.active? duel).map fun active => ((), active.duel, active.events) := by
  cases hplayable : unplayable? duel player with
  | some refusal =>
      simp [startNewRound, Move.commit?, Move.on_bind, on_ensurePlayable, hplayable]
  | none =>
      cases hactive : referee.active? duel <;>
        simp [startNewRound, Move.commit?, Move.on_bind, Move.on_map, on_ensurePlayable,
          on_ensureActiveRound, hplayable, hactive, Except.map]

/-! ### Coming in -/

/-- A duel with a player let in. -/
def entered (duel : Duel) (player : PlayerId) : Duel :=
  { duel with room := admitted duel.room player }

/-- What coming in gives. -/
theorem commit?_join (player : PlayerId) (duel : Duel) :
    (referee.join player).commit? duel =
      match inadmissible? duel player with
      | some refusal => .error (.refused refusal)
      | none =>
        if (admitted duel.room player).isFull ∧ duel.rounds = [] then
          (referee.opening? (entered duel player)).map fun round =>
            ((), (entered duel player).opened round,
              [.playerJoined player (admitted duel.room player).players,
                .roundStarted round.number round.maxAttempts])
        else
          .ok ((), entered duel player, [.playerJoined player (admitted duel.room player).players])
    := by
  cases hadmissible : inadmissible? duel player with
  | some refusal => simp [join, Move.commit?, Move.on_bind, hadmissible]
  | none =>
      by_cases hfirst : (admitted duel.room player).isFull ∧ duel.rounds = []
      · obtain ⟨hfull, hrounds⟩ := hfirst
        have hentered : entered duel player = ⟨admitted duel.room player, []⟩ := by
          rw [entered, hrounds]
        cases hopen : referee.opening? ⟨admitted duel.room player, []⟩ <;>
          simp [join, Move.commit?, Move.on_bind, Move.on_map, hadmissible, hfull, hrounds,
            on_openRound, hopen, hentered, Except.map]
      · simp [join, Move.commit?, Move.on_bind, hadmissible, hfirst, entered]

/-! ### Closing -/

/-- A duel whose room is closed. -/
def closed (duel : Duel) : Duel := { duel with room := { duel.room with status := .closed } }

/-- Closing a room always succeeds; a closed room stays as it is. -/
theorem commit?_close (duel : Duel) :
    close.commit? duel = .ok (duel.room.status ≠ .closed, closed duel, []) := by
  by_cases h : duel.room.status = .closed
  · have hclosed : closed duel = duel := by rw [closed, ← h]
    simp [close, Move.commit?, Move.on_bind, h, hclosed]
  · simp [close, Move.commit?, Move.on_bind, Move.on_map, h, closed, Except.map]

/-! ### The ways to succeed -/

/-- The changes that a referee allows to a duel, with the duels and the events that they
lead to. -/
inductive Effect (duel : Duel) : Change → Duel → List Event → Prop
  /-- A player comes in or comes back, and no round is to be opened. -/
  | enter {player : PlayerId} (admissible : inadmissible? duel player = none)
    (running : ¬((admitted duel.room player).isFull ∧ duel.rounds = [])) :
    Effect duel (.join player) (entered duel player)
      [.playerJoined player (admitted duel.room player).players]
  /-- A player comes in with whom the room is full, and the first round is opened. -/
  | pair {player : PlayerId} {round : Round} (admissible : inadmissible? duel player = none)
    (full : (admitted duel.room player).isFull) (first : duel.rounds = [])
    (opens : referee.opening? (entered duel player) = .ok round) :
    Effect duel (.join player) ((entered duel player).opened round)
      [.playerJoined player (admitted duel.room player).players,
        .roundStarted round.number round.maxAttempts]
  /-- A player guesses. -/
  | guess {player : PlayerId} {raw : String} {active : Active} {round : Round}
    {outcome : Outcome} (playable : unplayable? duel player = none)
    (plays : referee.active? duel = .ok active)
    (judged : referee.judge active.duel.room active.round player raw = .ok (round, outcome)) :
    Effect duel (.guess player raw) (referee.settled active.duel round)
      (active.events ++ guessEvents active.duel.room round outcome)
  /-- A player asks for the next round. -/
  | start {player : PlayerId} {active : Active} (playable : unplayable? duel player = none)
    (plays : referee.active? duel = .ok active) :
    Effect duel (.startRound player) active.duel active.events
  /-- The room is closed. -/
  | close : Effect duel .close (closed duel) []

end Referee

/-- To leave out the value of a move is to leave it out of what it gives. -/
theorem Move.commit?_bind_pure (m : Move α) (duel : Duel) :
    (do let _ ← m : Move Unit).commit? duel = (m.commit? duel).map fun given => ((), given.2) := by
  rw [commit?, commit?, on_bind]
  rcases m.on ⟨duel, []⟩ with ⟨_ | _, _⟩ <;> rfl

/-- An attempt succeeds in no other way than those listed. -/
theorem Ply.effect_of_play? {ply : Ply} {duel duel' : Duel} {events : List Event}
    (h : ply.play? duel = .ok (duel', events)) :
    ply.referee.Effect duel ply.change duel' events := by
  obtain ⟨referee, change⟩ := ply
  rw [play?] at h
  cases change with
  | join player =>
      simp only [Change.move, Referee.commit?_join] at h
      split at h
      · cases h
      · next hadmissible =>
        split at h
        · next hfirst =>
          cases hopen : referee.opening? (Referee.entered duel player) with
          | error failure => rw [hopen] at h; cases h
          | ok round =>
              rw [hopen] at h
              cases h
              exact .pair hadmissible hfirst.1 hfirst.2 hopen
        · next hrunning =>
          cases h
          exact .enter hadmissible hrunning
  | guess player raw =>
      simp only [Change.move, Move.commit?_bind_pure, Referee.commit?_submitGuess] at h
      split at h
      · cases h
      · next hplayable =>
        split at h
        · cases h
        · next active hactive =>
          cases hjudge : referee.judge active.duel.room active.round player raw with
          | error failure => rw [hjudge] at h; cases h
          | ok judged =>
              rw [hjudge] at h
              cases h
              exact .guess hplayable hactive hjudge
  | startRound player =>
      simp only [Change.move, Referee.commit?_startNewRound] at h
      split at h
      · cases h
      · next hplayable =>
        cases hactive : referee.active? duel with
        | error failure => rw [hactive] at h; cases h
        | ok active =>
            rw [hactive] at h
            cases h
            exact .start hplayable hactive
  | close =>
      simp only [Change.move, Move.commit?_bind_pure, Referee.commit?_close] at h
      cases h
      exact .close

/-- An attempt fails and leaves the duel as it was, or has an effect. -/
theorem Ply.after_cases (ply : Ply) (duel : Duel) :
    ply.after duel = duel ∨
      ∃ events, ply.referee.Effect duel ply.change (ply.after duel) events := by
  rw [after]
  cases hplay : ply.play? duel with
  | error failure => exact .inl rfl
  | ok given => exact .inr ⟨given.2, Ply.effect_of_play? hplay⟩

end WordDuel
