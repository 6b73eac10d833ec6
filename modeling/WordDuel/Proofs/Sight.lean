import WordDuel.Proofs.History
/-!
# WordDuel.Proofs.Sight

**What the view of a duel shows.** A view is made from a duel alone, and hides words by how
the player stands in the current round. What it has to show is said here without the view:
the words are those of the guesses that were submitted, in the order of submission, and the
round is for its two players only. That the two agree takes what holds of every duel that
arises.
-/

namespace WordDuel

/-! ### Submitted guesses -/

/-- A guess that was accepted. -/
structure Submission where
  /-- The number of the round that it was put down in. -/
  round : Nat
  player : PlayerId
  /-- The word as it counts. -/
  word : String

/-- The guess of an attempt, if it is one and is accepted. -/
def Ply.submission? (ply : Ply) (duel : Duel) : Option Submission :=
  match ply.change with
  | .guess player raw =>
    ((ply.referee.submitGuess player raw).commit? duel).toOption.map fun given =>
      ⟨given.1.1, player, GuessRules.normalize raw⟩
  | _ => none

namespace Duel

/-- The guesses that are accepted in the course of some attempts, in order. -/
def submissions (duel : Duel) : List Ply → List Submission
  | [] => []
  | ply :: plies => (ply.submission? duel).toList ++ (ply.after duel).submissions plies

/-- The guesses of all rounds are those that were submitted, in the same order. -/
structure Recounts (duel : Duel) (submitted : List Submission) : Prop where
  guesses : ∀ round ∈ duel.rounds, round.guesses.map (fun g => (g.player, g.word)) =
    (submitted.filter fun s => s.round == round.number).map fun s => (s.player, s.word)
  rounds : ∀ s ∈ submitted, s.round ≤ duel.rounds.length

variable {duel : Duel} {referee : Referee} {submitted : List Submission}

/-- What comes of a guess: nothing, or it is put down and submitted. -/
theorem guess_cases (referee : Referee) (player : PlayerId) (raw : String) (duel : Duel) :
    ((Ply.mk referee (.guess player raw)).after duel = duel ∧
      (Ply.mk referee (.guess player raw)).submission? duel = none) ∨
    ∃ active round outcome, Referee.unplayable? duel player = none ∧
      referee.active? duel = .ok active ∧
      referee.judge active.duel.room active.round player raw = .ok (round, outcome) ∧
      (Ply.mk referee (.guess player raw)).after duel = referee.settled active.duel round ∧
      (Ply.mk referee (.guess player raw)).submission? duel =
        some ⟨round.number, player, GuessRules.normalize raw⟩ := by
  have hplay : (Ply.mk referee (.guess player raw)).play? duel =
      ((referee.submitGuess player raw).commit? duel).map fun given => given.2 := by
    rw [Ply.play?]
    simp only [Change.move, Move.commit?_bind_pure]
    cases (referee.submitGuess player raw).commit? duel <;> rfl
  have hsubmission : (Ply.mk referee (.guess player raw)).submission? duel =
      ((referee.submitGuess player raw).commit? duel).toOption.map fun given =>
        ⟨given.1.1, player, GuessRules.normalize raw⟩ := rfl
  rw [Ply.after, hplay, hsubmission, Referee.commit?_submitGuess]
  cases hplayable : Referee.unplayable? duel player with
  | some refusal => exact .inl ⟨rfl, rfl⟩
  | none =>
      cases hactive : referee.active? duel with
      | error failure => exact .inl ⟨rfl, rfl⟩
      | ok active =>
          dsimp only
          cases hjudge : referee.judge active.duel.room active.round player raw with
          | error failure => exact .inl ⟨rfl, rfl⟩
          | ok judged => exact .inr ⟨active, judged.1, judged.2, rfl, rfl, hjudge, rfl, rfl⟩

theorem Recounts.opened (h : duel.Recounts submitted)
    (hnumbered : duel.rounds.map Round.number = List.range' 1 duel.rounds.length) {round : Round}
    (hopen : referee.opening? duel = .ok round) : (duel.opened round).Recounts submitted := by
  obtain ⟨-, target, -, rfl⟩ := referee.opening?_eq_ok_iff.1 hopen
  have hnumber : (referee.newRound duel target).number = duel.rounds.length + 1 :=
    nextNumber_of_numbered hnumbered
  refine ⟨fun round hround => ?_, fun s hs => ?_⟩
  · rcases List.mem_append.1 hround with hround | hround
    · exact h.guesses round hround
    · have hnone : submitted.filter (fun s => s.round == duel.rounds.length + 1) = [] := by
        rw [List.filter_eq_nil_iff]
        intro s hs heq
        have hle := h.rounds s hs
        rw [beq_iff_eq.1 heq] at hle
        omega
      rw [List.mem_singleton.1 hround, hnumber, hnone]
      rfl
  · have hle := h.rounds s hs
    rw [Duel.opened, List.length_append]
    omega

theorem Recounts.active? (h : duel.Recounts submitted)
    (hnumbered : duel.rounds.map Round.number = List.range' 1 duel.rounds.length)
    {active : Referee.Active} (hactive : referee.active? duel = .ok active) :
    active.duel.Recounts submitted := by
  rcases referee.active?_cases hactive with ⟨-, -, hsame⟩ | ⟨-, hopen, hopened⟩
  · rw [hsame]
    exact h
  · rw [hopened]
    exact h.opened hnumbered hopen

theorem Recounts.settled (h : duel.Recounts submitted) (hwf : duel.WellFormed)
    {last round : Round} {player : PlayerId} {raw : String} {outcome : Outcome}
    (hcurrent : duel.currentRound? = some last)
    (hjudge : referee.judge duel.room last player raw = .ok (round, outcome)) :
    (referee.settled duel round).Recounts
      (submitted ++ [⟨round.number, player, GuessRules.normalize raw⟩]) := by
  have hnumber := Referee.number_of_judge hjudge
  have hrounds := hwf.rounds_eq hcurrent
  have hnumbered := hwf.numbered
  have hguesses := h.guesses
  have hle := h.rounds
  have hconcluded : (referee.concluded duel.room round).number = last.number ∧
      (referee.concluded duel.room round).guesses.map (fun g => (g.player, g.word)) =
        last.guesses.map (fun g => (g.player, g.word)) ++ [(player, GuessRules.normalize raw)] := by
    obtain ⟨-, -, -, rfl⟩ := referee.judge_eq_ok_iff.1 hjudge
    rw [concluded_eq]
    exact ⟨rfl, by simp [Referee.record]⟩
  rw [hwf.settled_eq referee hcurrent hnumber]
  generalize duel.rounds.dropLast = earlier at hrounds
  rw [hrounds] at hguesses hnumbered hle
  rw [List.length_append, List.length_singleton] at hnumbered hle
  obtain ⟨hlast, hothers⟩ := number_of_numbered hnumbered
  refine ⟨fun r hr => ?_, fun s hs => ?_⟩
  · rw [List.filter_append, List.map_append]
    rcases List.mem_append.1 hr with hr | hr
    · have hne : (round.number == r.number) = false := by
        rw [hnumber, beq_eq_false_iff_ne]
        exact Ne.symm (hothers r hr)
      rw [hguesses r (List.mem_append_left _ hr)]
      simp [hne]
    · rw [List.mem_singleton.1 hr, hconcluded.1, hconcluded.2, hguesses last (by simp), hnumber]
      simp
  · rw [List.length_append, List.length_singleton]
    rcases List.mem_append.1 hs with hs | hs
    · exact hle s hs
    · rw [List.mem_singleton.1 hs]
      show round.number ≤ _
      omega

theorem Recounts.after (h : duel.Recounts submitted) (hwf : duel.WellFormed) (ply : Ply) :
    (ply.after duel).Recounts (submitted ++ (ply.submission? duel).toList) := by
  have hrounds {duel' : Duel} (hsame : duel'.rounds = duel.rounds) : duel'.Recounts submitted :=
    ⟨fun round hround => h.guesses round (hsame ▸ hround), fun s hs => hsame ▸ h.rounds s hs⟩
  -- Whatever is not a guess opens a round at most.
  have hother {ply : Ply} (hguess : ∀ player raw, ply.change ≠ .guess player raw) :
      (ply.after duel).Recounts submitted := by
    rcases ply.after_cases duel with hsame | ⟨events, heffect⟩
    · exact hrounds (congrArg Duel.rounds hsame)
    · generalize ply.after duel = duel', ply.change = change at heffect hguess
      cases heffect with
      | enter hadmissible hrunning => exact hrounds rfl
      | @pair player round hadmissible hfull hfirst hopen =>
          have hentered : (Referee.entered duel player).Recounts submitted := hrounds rfl
          exact hentered.opened hwf.numbered hopen
      | guess hplayable hactive hjudge => exact (hguess _ _ rfl).elim
      | start hplayable hactive => exact h.active? hwf.numbered hactive
      | close => exact hrounds rfl
  obtain ⟨referee, change⟩ := ply
  cases change with
  | guess player raw =>
      rcases guess_cases referee player raw duel with
        ⟨hsame, hnone⟩ | ⟨active, round, outcome, hplayable, hactive, hjudge, hafter, hsome⟩
      · rw [hsame, hnone, Option.toList_none, List.append_nil]
        exact h
      · rw [hafter, hsome, Option.toList_some]
        exact (h.active? hwf.numbered hactive).settled
          (hwf.active? (playable_iff.1 hplayable).2 hactive)
          (referee.currentRound?_active? hactive) hjudge
  | join | startRound | close =>
      rw [Ply.submission?, Option.toList_none, List.append_nil]
      exact hother (by simp)

theorem Recounts.course (h : duel.Recounts submitted) (hwf : duel.WellFormed)
    (plies : List Ply) : (duel.course plies).Recounts (submitted ++ duel.submissions plies) := by
  induction plies generalizing duel submitted with
  | nil =>
      rw [submissions, List.append_nil]
      exact h
  | cons ply plies ih =>
      rw [submissions, ← List.append_assoc]
      exact ih (h.after hwf ply) (hwf.after ply)

end Duel

/-! ### Attempts are numbered -/

/-- The guesses of each player are numbered from 1 in order. -/
def Round.Numbered (round : Round) : Prop :=
  ∀ player, (round.guessesBy player).map Guess.attempt = List.range' 1 (round.attemptsUsed player)

theorem Round.Numbered.record {round : Round} (h : round.Numbered) {guess : Guess}
    {standing : Standing} (hattempt : guess.attempt = round.attemptsUsed guess.player + 1) :
    (Referee.record round guess standing).Numbered := by
  intro other
  rw [attemptsUsed, guessesBy_record]
  split
  · next hother =>
    rw [hother] at hattempt
    rw [List.map_append, h other, List.length_append, List.length_singleton, List.map_singleton,
      hattempt, List.range'_concat, Nat.one_mul, Nat.add_comm 1]
    rfl
  · exact h other

theorem Round.Numbered.judged {referee : Referee} {room : Room} {round round' : Round}
    {player : PlayerId} {raw : String} {outcome : Outcome} (h : round.Numbered)
    (hjudge : referee.judge room round player raw = .ok (round', outcome)) :
    (referee.concluded room round').Numbered := by
  have hrecorded : round'.Numbered := by
    obtain ⟨-, -, houtcome, rfl⟩ := referee.judge_eq_ok_iff.1 hjudge
    exact h.record (by rw [houtcome])
  rw [Referee.concluded]
  split
  · exact hrecorded
  · exact hrecorded

theorem Duel.Arises.numbered {duel : Duel} (h : duel.Arises) :
    ∀ round ∈ duel.rounds, round.Numbered := by
  refine (h.induction (P := fun duel => duel.WellFormed ∧ ∀ round ∈ duel.rounds, round.Numbered)
    ?_ ?_).2
  · intro referee id language creator
    refine ⟨wellFormed_createRoom referee id language creator, fun round hround => ?_⟩
    cases hround
  · rintro duel ply ⟨hwf, hnumbered⟩
    refine ⟨hwf.after ply, (hwf.rounds_after ply).forall_round (fun _ _ _ => rfl) ?_ hnumbered⟩
    exact fun _ _ _ _ _ _ hround hjudge => hround.judged hjudge

/-! ### What is shown -/

/-- A round reveals its words to a player once it has ended or the player has won or lost
it. -/
def Round.Reveals (round : Round) (player : PlayerId) : Prop :=
  round.status = .ended ∨ round.standingOf? player = some .won ∨
    round.standingOf? player = some .lost

instance (round : Round) (player : PlayerId) : Decidable (round.Reveals player) :=
  inferInstanceAs (Decidable (_ ∨ _))

theorem Round.isOpenTo_iff {round : Round} {player : PlayerId} :
    round.isOpenTo player ↔ round.Reveals player := by
  rw [isOpenTo, isFinished, isDone, Reveals]
  cases round.standingOf? player with
  | none => simp
  | some standing => cases standing <;> simp [Standing.isTerminal]

/-- What a player is to see of a round of the players of a roster, given the guesses that were
submitted. -/
structure RoundView.Shows (shown : RoundView) (round : Round) (roster : List PlayerId)
    (submitted : List Submission) (player : PlayerId) : Prop where
  number : shown.number = round.number
  status : shown.status = round.status
  target : shown.target = if round.Reveals player then some round.target else none
  /-- The players are those of the roster in order, with their standings. -/
  players : shown.players.map (fun p => (p.player, some p.standing)) =
    roster.map fun p => (p, round.standingOf? p)
  /-- The guesses are in the order of submission. -/
  guesses : shown.guesses.map (fun g => (g.player, g.word)) =
    (submitted.filter fun s => s.round == round.number).map fun s =>
      (s.player, if round.Reveals player ∨ s.player = player then some s.word else none)
  /-- Each player's guesses are numbered from 1, up to the number of attempts shown. -/
  attempts : ∀ progress ∈ shown.players,
    (shown.guesses.filter fun g => g.player == progress.player).map GuessView.attempt =
      List.range' 1 progress.attemptsUsed

/-- What a player is to see of a duel, given the guesses that were submitted. -/
structure RoomView.Shows (view : RoomView) (duel : Duel) (submitted : List Submission)
    (player : PlayerId) : Prop where
  /-- The points are in the order of the roster. -/
  points : view.players = duel.room.players.map fun p => ⟨p, duel.room.pointsOf p⟩
  /-- A round is for its players. -/
  stranger : player ∉ duel.room.players → view.currentRound = none
  member : player ∈ duel.room.players →
    (view.currentRound.isSome ↔ duel.currentRound?.isSome)
  round : ∀ shown ∈ view.currentRound, ∃ round, duel.currentRound? = some round ∧
    shown.Shows round duel.room.players submitted player

theorem progressOf?_eq {round : Round} {player : PlayerId} {standing : Standing}
    (h : round.standingOf? player = some standing) :
    round.progressOf? player = some ⟨player, standing, round.attemptsUsed player⟩ := by
  rw [Round.progressOf?, h]
  rfl

/-- Everybody on the roster has a line in the view of a round. -/
theorem players_progressOf? {round : Round} {roster : List PlayerId}
    (h : ∀ player ∈ roster, (round.standingOf? player).isSome) :
    (roster.filterMap round.progressOf?).map (fun p => (p.player, some p.standing)) =
      roster.map fun p => (p, round.standingOf? p) := by
  induction roster with
  | nil => rfl
  | cons player roster ih =>
      obtain ⟨standing, hstanding⟩ := Option.isSome_iff_exists.1 (h player (by simp))
      rw [List.filterMap_cons_some (progressOf?_eq hstanding), List.map_cons, List.map_cons,
        ih fun p hp => h p (by simp [hp]), hstanding]

theorem Round.shows_view {round : Round} {room : Room} {submitted : List Submission}
    {player : PlayerId} (hstandings : ∀ p ∈ room.players, (round.standingOf? p).isSome)
    (hnumbered : round.Numbered)
    (hguesses : round.guesses.map (fun g => (g.player, g.word)) =
      (submitted.filter fun s => s.round == round.number).map fun s => (s.player, s.word)) :
    (round.view room player).Shows round room.players submitted player where
  number := rfl
  status := rfl
  target := by simp [Round.view, isOpenTo_iff]
  players := players_progressOf? hstandings
  guesses := by
    have hwords := congrArg (List.map fun g : PlayerId × String =>
      (g.1, if round.Reveals player ∨ g.1 = player then some g.2 else none)) hguesses
    rw [List.map_map, List.map_map] at hwords
    refine Eq.trans ?_ hwords
    rw [Round.view, List.map_map]
    refine List.map_congr_left fun guess _ => ?_
    simp [Guess.view, isOpenTo_iff]
  attempts progress hprogress := by
    obtain ⟨p, -, hp⟩ := List.mem_filterMap.1 hprogress
    obtain ⟨standing, -, rfl⟩ := Option.map_eq_some_iff.1 hp
    refine Eq.trans ?_ (hnumbered p)
    simp [Round.view, Guess.view, Round.guessesBy, List.filter_map, Function.comp_def]

/-- Who is not on the roster may look only while nothing is played. -/
theorem Duel.WellFormed.currentRound?_of_place {duel : Duel} (h : duel.WellFormed)
    (hplace : ¬duel.room.isFull) : duel.currentRound? = none := by
  have hnotPaired (hpaired : duel.Paired) : False :=
    hplace (decide_eq_true (Nat.le_of_eq hpaired.players.symm))
  have halone := h.alone_or_paired.resolve_right hnotPaired
  rw [currentRound?, halone.current]
  rfl

theorem Duel.shows_viewFor {duel : Duel} {submitted : List Submission} {player : PlayerId}
    (hwf : duel.WellFormed) (hnumbered : ∀ round ∈ duel.rounds, round.Numbered)
    (hrecounts : duel.Recounts submitted)
    (hseen : player ∈ duel.room.players ∨ ¬duel.room.isFull) :
    (duel.viewFor player).Shows duel submitted player where
  points := rfl
  stranger hstranger := by
    rw [viewFor, hwf.currentRound?_of_place (hseen.resolve_left hstranger)]
    rfl
  member _ := by
    rw [viewFor, Option.isSome_map]
  round shown hshown := by
    obtain ⟨round, hround, rfl⟩ := Option.map_eq_some_iff.1 hshown
    have hmem := hwf.mem_rounds hround
    exact ⟨round, hround, Round.shows_view
      (fun p hp => ((hwf.standings round hmem).2 p).2 hp) (hnumbered round hmem)
      (hrecounts.guesses round hmem)⟩

/-- After any attempts in a new room, who is on the roster or finds a place there is shown
what there is to see. -/
theorem Referee.shows_course (referee : Referee) (id : RoomId) (language : Language)
    (creator : PlayerId) (plies : List Ply) {player : PlayerId}
    (hseen : player ∈ ((referee.createRoom id language creator).1.course plies).room.players ∨
      ¬((referee.createRoom id language creator).1.course plies).room.isFull) :
    (((referee.createRoom id language creator).1.course plies).viewFor player).Shows
      ((referee.createRoom id language creator).1.course plies)
      ((referee.createRoom id language creator).1.submissions plies) player := by
  have hwf := Duel.wellFormed_createRoom referee id language creator
  have harises : ((referee.createRoom id language creator).1.course plies).Arises :=
    ⟨referee, id, language, creator, plies, rfl⟩
  have hnone : (referee.createRoom id language creator).1.Recounts [] :=
    { guesses := fun round hround => by cases hround
      rounds := fun s hs => by cases hs }
  exact Duel.shows_viewFor harises.wellFormed harises.numbered (hnone.course hwf plies) hseen

end WordDuel
