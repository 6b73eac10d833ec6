import WordDuel.Proofs.History
/-!
# WordDuel.Proofs.Points

**Points are rounds won.** A win is put down when the winning guess is made, and paid when
the round ends, which may be many guesses later and because of the other player. That the
two agree takes one fact about the last round: it has not been paid for as long as it has
not ended, and it ends as soon as nobody can guess any more.
-/

namespace WordDuel

namespace Duel

/-- The number of rounds that have ended with a win for a player. -/
def roundsWon (duel : Duel) (player : PlayerId) : Nat :=
  duel.rounds.countP fun round => round.status = .ended ∧ round.standingOf? player = some .won

/-- A round ends when all players are done with it, and not before. -/
structure EndsWith (players : List PlayerId) (round : Round) : Prop where
  ended : round.status = .ended ↔ ∀ player ∈ players, round.isDone player
  finished : round.finishedAt.isSome ↔ round.status = .ended

/-- The points of a duel agree with its rounds. -/
structure Accounted (duel : Duel) : Prop where
  points : ∀ player ∈ duel.room.players, duel.room.pointsOf player = duel.roundsWon player
  rounds : ∀ round ∈ duel.rounds, EndsWith duel.room.players round

variable {duel : Duel} {referee : Referee}

/-! ### Opening a round -/

theorem roundsWon_opened {round : Round} (hplaying : round.status = .playing)
    (player : PlayerId) : (duel.opened round).roundsWon player = duel.roundsWon player := by
  simp [roundsWon, opened, hplaying]

/-- A new round has players who can guess, and therefore has not ended. -/
theorem endsWith_newRound {target : String} (hplayers : duel.room.players ≠ []) :
    EndsWith duel.room.players (referee.newRound duel target) where
  ended := by
    obtain ⟨player, hplayer⟩ := List.exists_mem_of_ne_nil _ hplayers
    have hstanding := standingOf?_newRound referee duel target player
    rw [if_pos hplayer] at hstanding
    constructor
    · intro hended
      cases hended
    · intro hdone
      have hdone := hdone player hplayer
      rw [Round.isDone, hstanding] at hdone
      cases hdone
  finished := ⟨fun hsome => (by cases hsome), fun hended => (by cases hended)⟩

theorem Accounted.opened (h : duel.Accounted) {round : Round}
    (hopen : referee.opening? duel = .ok round) : (duel.opened round).Accounted := by
  obtain ⟨hready, target, -, rfl⟩ := referee.opening?_eq_ok_iff.1 hopen
  have hplayers : duel.room.players ≠ [] := by
    rintro hnil
    rw [hnil] at hready
    cases hready
  refine ⟨fun player hplayer => ?_, fun round hround => ?_⟩
  · rw [roundsWon_opened rfl]
    exact h.points player hplayer
  · rcases List.mem_append.1 hround with hround | hround
    · exact h.rounds round hround
    · rw [List.mem_singleton.1 hround]
      exact endsWith_newRound hplayers

theorem Accounted.active? (h : duel.Accounted) {active : Referee.Active}
    (hactive : referee.active? duel = .ok active) : active.duel.Accounted := by
  rcases referee.active?_cases hactive with ⟨-, -, hsame⟩ | ⟨-, hopen, hopened⟩
  · rw [hsame]
    exact h
  · rw [hopened]
    exact h.opened hopen

/-! ### Coming in -/

/-- Nothing has been played when the second player comes in, so that both have no points. -/
theorem Accounted.entered (h : duel.Accounted) (hwf : duel.WellFormed) {player : PlayerId}
    (hnew : player ∉ duel.room.players) (hstatus : duel.room.status = .waiting) :
    (Referee.entered duel player).Accounted := by
  have hnone := (hwf.waiting hstatus).rounds
  have hpoints (other : PlayerId) := pointsOf_addPlayer duel.room player other
  have hzero : duel.room.pointsOf player = 0 := by
    have hunscored := mt (hwf.scored player).1 hnew
    rw [SortedMap.contains, Bool.not_eq_true, Option.isSome_eq_false_iff,
      Option.isNone_iff_eq_none] at hunscored
    rw [Room.pointsOf, hunscored]
    rfl
  rw [hwf.entered_new hnew hstatus]
  refine ⟨fun other hother => ?_, fun round hround => ?_⟩
  · show (duel.room.addPlayer player).pointsOf other = duel.roundsWon other
    rw [hpoints]
    rcases List.mem_append.1 hother with hother | hother
    · exact h.points other hother
    · rw [List.mem_singleton.1 hother, hzero, roundsWon, hnone]
      rfl
  · have hround : round ∈ duel.rounds := hround
    rw [hnone] at hround
    cases hround

/-! ### Guessing -/

/-- A round ends with the guess after which all players are done. -/
theorem EndsWith.concluded {room : Room} {last round : Round} {player : PlayerId} {raw : String}
    {outcome : Outcome} (h : EndsWith room.players last) (hplaying : last.isFinished = false)
    (hjudge : referee.judge room last player raw = .ok (round, outcome)) :
    EndsWith room.players (referee.concluded room round) := by
  have hnotEnded : last.status ≠ .ended := by simpa [Round.isFinished] using hplaying
  have hunfinished : last.finishedAt.isSome = false := by
    rw [Bool.eq_false_iff]
    exact fun hsome => hnotEnded (h.finished.1 hsome)
  obtain ⟨-, -, -, rfl⟩ := referee.judge_eq_ok_iff.1 hjudge
  rw [concluded_eq]
  split
  · next hall => exact ⟨⟨fun _ => List.all_eq_true.1 hall, fun _ => rfl⟩, by simp⟩
  · next hall =>
    rw [Referee.allDone, List.all_eq_true] at hall
    exact ⟨⟨fun hended => (hnotEnded hended).elim, fun hdone => (hall hdone).elim⟩,
      by simp [Referee.record, hunfinished, hnotEnded]⟩

theorem Accounted.settled (h : duel.Accounted) (hwf : duel.WellFormed) {last round : Round}
    {player : PlayerId} {raw : String} {outcome : Outcome}
    (hcurrent : duel.currentRound? = some last) (hplaying : last.isFinished = false)
    (hjudge : referee.judge duel.room last player raw = .ok (round, outcome)) :
    (referee.settled duel round).Accounted := by
  have hlast := hwf.rounds_eq hcurrent
  have hmem := hwf.mem_rounds hcurrent
  have hends := (h.rounds last hmem).concluded hplaying hjudge
  have hnotEnded : last.status ≠ .ended := by simpa [Round.isFinished] using hplaying
  have hnotYet : round.status ≠ .ended := by
    rw [Referee.status_of_judge hjudge]
    exact hnotEnded
  -- The last round did not count before, and counts now if it is paid for.
  have hwon (other : PlayerId) : duel.roundsWon other = duel.rounds.dropLast.countP
      fun r => r.status = .ended ∧ r.standingOf? other = some .won := by
    have hsplit := congrArg
      (List.countP fun r : Round => r.status = .ended ∧ r.standingOf? other = some .won) hlast
    simpa [roundsWon, List.countP_append, hnotEnded] using hsplit
  have hpoints (other : PlayerId) := pointsOf_rewarded duel.room round other
  rw [hwf.settled_eq referee hcurrent (Referee.number_of_judge hjudge)]
  rw [rewarded_eq] at hpoints ⊢
  refine ⟨fun other hother => ?_, fun r hr => ?_⟩
  · rw [hpoints, h.points other hother, hwon, roundsWon, List.countP_append, concluded_eq]
    by_cases hall : Referee.allDone duel.room round
    · by_cases hother : round.standingOf? other = some .won <;>
        simp [hall, Round.standingOf?] at hother ⊢ <;> simp [hother]
    · simp [hall, hnotYet]
  · rcases List.mem_append.1 hr with hr | hr
    · exact h.rounds r (List.dropLast_subset _ hr)
    · rw [List.mem_singleton.1 hr]
      exact hends

/-! ### Every duel that arises -/

theorem Accounted.effect (h : duel.Accounted) (hwf : duel.WellFormed) {duel' : Duel}
    {change : Change} {events : List Event} (heffect : referee.Effect duel change duel' events) :
    duel'.Accounted := by
  have hentered {player : PlayerId} (hadmissible : Referee.inadmissible? duel player = none) :
      (Referee.entered duel player).Accounted := by
    rcases (hwf.admissible hadmissible).2 with hmember | ⟨hnew, hstatus, -⟩
    · rw [hwf.entered_eq hmember]
      exact h
    · exact h.entered hwf hnew hstatus
  cases heffect with
  | enter hadmissible hrunning => exact hentered hadmissible
  | pair hadmissible hfull hfirst hopen => exact (hentered hadmissible).opened hopen
  | guess hplayable hactive hjudge =>
      exact (h.active? hactive).settled (hwf.active? (playable_iff.1 hplayable).2 hactive)
        (referee.currentRound?_active? hactive) (referee.isFinished_active? hactive) hjudge
  | start hplayable hactive => exact h.active? hactive
  | close => exact ⟨h.points, h.rounds⟩

theorem accounted_createRoom (referee : Referee) (id : RoomId) (language : Language)
    (creator : PlayerId) : (referee.createRoom id language creator).1.Accounted where
  points player hplayer := by
    obtain rfl := List.mem_singleton.1 hplayer
    simp [Referee.createRoom, Room.new, Room.addPlayer, Room.pointsOf, roundsWon]
  rounds round hround := by cases hround

theorem Arises.accounted {duel : Duel} (h : duel.Arises) : duel.Accounted := by
  refine (h.induction (P := fun duel => duel.WellFormed ∧ duel.Accounted) ?_ ?_).2
  · intro referee id language creator
    exact ⟨wellFormed_createRoom referee id language creator,
      accounted_createRoom referee id language creator⟩
  · rintro duel ply ⟨hwf, haccounted⟩
    refine ⟨hwf.after ply, ?_⟩
    rcases ply.after_cases duel with hsame | ⟨events, heffect⟩
    · rw [hsame]
      exact haccounted
    · exact haccounted.effect hwf heffect

/-- In every duel that arises, whatever the rules were at each attempt, the points of a
player are the number of rounds that have ended with a win for that player. A round has two
players; it has ended exactly when both have won or lost, and exactly then it has a time at
which it ended. -/
theorem points_of_arises {duel : Duel} (h : duel.Arises) :
    (∀ player ∈ duel.room.players, duel.room.pointsOf player = duel.roundsWon player) ∧
    ∀ round ∈ duel.rounds,
      duel.room.players.length = 2 ∧
      (round.status = .ended ↔ ∀ player ∈ duel.room.players, round.isDone player) ∧
      (round.finishedAt.isSome ↔ round.status = .ended) :=
  ⟨h.accounted.points, fun round hround => ⟨(h.wellFormed.standings round hround).1,
    (h.accounted.rounds round hround).ended, (h.accounted.rounds round hround).finished⟩⟩

/-- Alice has won the first round, and after that the second one has been opened and Bob has
come back. -/
theorem points_of_winner :
    (Sample.after (Sample.twoRounds.take 5 ++ [.join Sample.bob])).Arises ∧
      (Sample.after (Sample.twoRounds.take 5 ++ [.join Sample.bob])).room.pointsOf Sample.alice =
        (1 : Nat) ∧
      ∀ round ∈ (Sample.after (Sample.twoRounds.take 5 ++ [.join Sample.bob])).rounds,
        round.finishedAt.isSome → round.isDone Sample.bob := by
  have harises := Sample.arises_after (Sample.twoRounds.take 5 ++ [.join Sample.bob])
  obtain ⟨hpoints, hrounds⟩ := points_of_arises harises
  refine ⟨harises, ?_, ?_⟩
  · rw [hpoints Sample.alice (by decide +kernel)]
    exact congrArg Nat.cast (by decide +kernel)
  · intro round hround hfinished
    obtain ⟨-, hended, hsome⟩ := hrounds round hround
    exact hended.1 (hsome.1 hfinished) Sample.bob (by decide +kernel)

end Duel

end WordDuel
