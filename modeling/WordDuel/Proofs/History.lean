import WordDuel.Proofs.Ledger
/-!
# WordDuel.Proofs.History

**What has happened stays.** `Duel.Grows` relates a duel to one that it may turn into: the
roster, the rounds and the guesses are only ever added to, what has come to an end stays as
it is, and there is a limit to what is added. Limits add up (`Grows.trans`), so that a guess
that opens a round for itself is accounted for in two parts.

None of this depends on the rules in force, which may even leave a player without a guess.
-/

namespace WordDuel

/-! ### Growth -/

/-- The stages of a room in numbers. -/
def RoomStatus.rank : RoomStatus → Nat
  | .waiting => 0
  | .inProgress => 1
  | .closed => 2

/-- What may become of a round. -/
structure Round.Grows (round round' : Round) : Prop where
  room : round'.room = round.room
  number : round'.number = round.number
  target : round'.target = round.target
  maxAttempts : round'.maxAttempts = round.maxAttempts
  startedAt : round'.startedAt = round.startedAt
  players : ∀ player, round'.standings.contains player ↔ round.standings.contains player
  guesses : round.guesses <+: round'.guesses
  /-- Who has won or lost stands so for good. -/
  done : ∀ player, round.isDone player → round'.standingOf? player = round.standingOf? player
  ended : round.status = .ended → round' = round

/-- The number of guesses in all rounds. -/
def Duel.guessCount (duel : Duel) : Nat := (duel.rounds.flatMap Round.guesses).length

/-- What may become of a duel if each player wins at most so many points more and at most so
many rounds and guesses are added. -/
structure Duel.Grows (morePoints moreRounds moreGuesses : Nat) (duel duel' : Duel) : Prop where
  id : duel'.id = duel.id
  language : duel'.room.language = duel.room.language
  createdAt : duel'.room.createdAt = duel.room.createdAt
  players : duel.room.players <+: duel'.room.players
  status : duel.room.status.rank ≤ duel'.room.status.rank
  points_le : ∀ player, duel.room.pointsOf player ≤ duel'.room.pointsOf player
  le_points : ∀ player, duel'.room.pointsOf player ≤ duel.room.pointsOf player + morePoints
  /-- Every round is still in its place. -/
  rounds : ∀ (i : Nat) (round : Round), duel.rounds[i]? = some round →
    ∃ round', duel'.rounds[i]? = some round' ∧ round.Grows round'
  le_rounds : duel'.rounds.length ≤ duel.rounds.length + moreRounds
  le_guesses : duel'.guessCount ≤ duel.guessCount + moreGuesses

namespace Round.Grows

theorem refl (round : Round) : round.Grows round :=
  ⟨rfl, rfl, rfl, rfl, rfl, fun _ => Iff.rfl, List.prefix_refl _, fun _ _ => rfl, fun _ => rfl⟩

theorem trans {a b c : Round} (hab : a.Grows b) (hbc : b.Grows c) : a.Grows c where
  room := hbc.room.trans hab.room
  number := hbc.number.trans hab.number
  target := hbc.target.trans hab.target
  maxAttempts := hbc.maxAttempts.trans hab.maxAttempts
  startedAt := hbc.startedAt.trans hab.startedAt
  players player := (hbc.players player).trans (hab.players player)
  guesses := hab.guesses.trans hbc.guesses
  done player hdone := by
    have hstanding := hab.done player hdone
    have hdone' : b.isDone player := by
      rw [Round.isDone, hstanding]
      exact hdone
    exact (hbc.done player hdone').trans hstanding
  ended hended := by
    obtain rfl := hab.ended hended
    exact hbc.ended hended

end Round.Grows

namespace Duel

theorem Grows.refl (duel : Duel) : duel.Grows 0 0 0 duel where
  id := rfl
  language := rfl
  createdAt := rfl
  players := List.prefix_refl _
  status := Nat.le_refl _
  points_le _ := Int.le_refl _
  le_points player := by simp
  rounds i round hround := ⟨round, hround, .refl round⟩
  le_rounds := Nat.le_refl _
  le_guesses := Nat.le_refl _

theorem Grows.trans {a b c : Duel} {points rounds guesses points' rounds' guesses' : Nat}
    (hab : a.Grows points rounds guesses b) (hbc : b.Grows points' rounds' guesses' c) :
    a.Grows (points + points') (rounds + rounds') (guesses + guesses') c where
  id := hbc.id.trans hab.id
  language := hbc.language.trans hab.language
  createdAt := hbc.createdAt.trans hab.createdAt
  players := hab.players.trans hbc.players
  status := Nat.le_trans hab.status hbc.status
  points_le player := Int.le_trans (hab.points_le player) (hbc.points_le player)
  le_points player := by
    have hfirst := hab.le_points player
    have hsecond := hbc.le_points player
    omega
  rounds i round hround := by
    obtain ⟨round', hround', hgrows⟩ := hab.rounds i round hround
    obtain ⟨round'', hround'', hgrows'⟩ := hbc.rounds i round' hround'
    exact ⟨round'', hround'', hgrows.trans hgrows'⟩
  le_rounds := by
    have hfirst := hab.le_rounds
    have hsecond := hbc.le_rounds
    omega
  le_guesses := by
    have hfirst := hab.le_guesses
    have hsecond := hbc.le_guesses
    omega

theorem Grows.mono {duel duel' : Duel} {points rounds guesses points' rounds' guesses' : Nat}
    (h : duel.Grows points rounds guesses duel') (hpoints : points ≤ points')
    (hrounds : rounds ≤ rounds') (hguesses : guesses ≤ guesses') :
    duel.Grows points' rounds' guesses' duel' where
  id := h.id
  language := h.language
  createdAt := h.createdAt
  players := h.players
  status := h.status
  points_le := h.points_le
  le_points player := by
    have hbound := h.le_points player
    omega
  rounds := h.rounds
  le_rounds := Nat.le_trans h.le_rounds (Nat.add_le_add_left hrounds _)
  le_guesses := Nat.le_trans h.le_guesses (Nat.add_le_add_left hguesses _)

/-! ### One attempt -/

theorem concluded_eq (referee : Referee) (room : Room) (round : Round) :
    referee.concluded room round =
      { round with
        status := if Referee.allDone room round then .ended else round.status
        finishedAt := if Referee.allDone room round then some (referee.clock .ending)
          else round.finishedAt } := by
  rw [Referee.concluded]
  split <;> rfl

theorem grows_of_roundStep {referee : Referee} {room : Room} {round round' : Round}
    (hstep : referee.RoundStep room round round') : round.Grows round' := by
  have hdone player (hdone : round.isDone player) := (done_of_roundStep hdone hstep).2
  cases hstep with
  | kept => exact .refl round
  | guessed hplaying hjudge =>
      have hplayers := isSome_standingOf?_judge hjudge
      have hnotEnded : round.status ≠ .ended := by simpa [Round.isFinished] using hplaying
      obtain ⟨-, -, -, rfl⟩ := referee.judge_eq_ok_iff.1 hjudge
      rw [concluded_eq] at hdone ⊢
      exact ⟨rfl, rfl, rfl, rfl, rfl, hplayers, List.prefix_append _ _, hdone,
        fun hended => (hnotEnded hended).elim⟩

theorem admitted_eq (room : Room) (player : PlayerId) :
    Referee.admitted room player =
      { room.addPlayer player with
        status := if (room.addPlayer player).isFull ∧ room.status = .waiting then .inProgress
          else room.status } := by
  rw [Referee.admitted]
  split
  · next hpaired => rw [if_pos (show _ ∧ room.status = .waiting from hpaired)]
  · next hrest =>
    rw [if_neg (show ¬(_ ∧ room.status = .waiting) from hrest)]
    rfl

/-- Coming in changes nobody's points. -/
theorem pointsOf_addPlayer (room : Room) (player other : PlayerId) :
    (room.addPlayer player).pointsOf other = room.pointsOf other := by
  by_cases hother : other = player
  · simp [Room.addPlayer, Room.pointsOf, hother]
  · simp [Room.addPlayer, Room.pointsOf, SortedMap.get?_insert_of_ne _ _ hother]

theorem grows_entered (duel : Duel) (player : PlayerId) :
    duel.Grows 0 0 0 (Referee.entered duel player) := by
  have hplayers : duel.room.players <+: (duel.room.addPlayer player).players := by
    rw [Room.addPlayer]
    split
    · exact List.prefix_refl _
    · exact List.prefix_append _ _
  have hpoints (other : PlayerId) := pointsOf_addPlayer duel.room player other
  rw [Referee.entered, admitted_eq]
  exact
    { id := rfl
      language := rfl
      createdAt := rfl
      players := hplayers
      status := by
        dsimp only
        split
        · next hpaired => simp [hpaired.2, RoomStatus.rank]
        · exact Nat.le_refl _
      points_le := fun other => Int.le_of_eq (hpoints other).symm
      le_points := fun other => by
        rw [Int.natCast_zero, Int.add_zero]
        exact Int.le_of_eq (hpoints other)
      rounds := fun i round hround => ⟨round, hround, .refl round⟩
      le_rounds := Nat.le_refl _
      le_guesses := Nat.le_refl _ }

theorem grows_opened {referee : Referee} {duel : Duel} {round : Round}
    (hopen : referee.opening? duel = .ok round) : duel.Grows 0 1 0 (duel.opened round) := by
  obtain ⟨-, target, -, rfl⟩ := referee.opening?_eq_ok_iff.1 hopen
  exact
    { id := rfl
      language := rfl
      createdAt := rfl
      players := List.prefix_refl _
      status := Nat.le_refl _
      points_le := fun _ => Int.le_refl _
      le_points := fun player => by simp [opened, Room.pointsOf]
      rounds := fun i round hround =>
        ⟨round, getElem?_concat_iff.2 (.inl hround), .refl round⟩
      le_rounds := by simp [opened]
      le_guesses := by simp [guessCount, opened, Referee.newRound] }

theorem grows_active? {referee : Referee} {duel : Duel} {active : Referee.Active}
    (hactive : referee.active? duel = .ok active) : duel.Grows 0 1 0 active.duel := by
  rcases referee.active?_cases hactive with ⟨-, -, hsame⟩ | ⟨-, hopen, hopened⟩
  · rw [hsame]
    exact (Grows.refl duel).mono (Nat.le_refl _) (Nat.zero_le _) (Nat.le_refl _)
  · rw [hopened]
    exact grows_opened hopen

theorem rewarded_eq (room : Room) (round : Round) :
    Referee.rewarded room round =
      { room with
        scores := if Referee.allDone room round then (Referee.pay room round).scores
          else room.scores } := by
  rw [Referee.rewarded]
  split <;> rfl

/-- What a player has after a guess: one point more, if it ends a round that the player has
won. -/
theorem pointsOf_rewarded (room : Room) (round : Round) (player : PlayerId) :
    (Referee.rewarded room round).pointsOf player =
      if Referee.allDone room round ∧ round.standingOf? player = some .won then
        room.pointsOf player + 1
      else room.pointsOf player := by
  rw [Referee.rewarded]
  by_cases hall : Referee.allDone room round
  · rw [if_pos hall, Room.pointsOf, Referee.get?_scores_pay]
    by_cases hwon : round.standingOf? player = some .won
    · simp [hall, hwon]
    · simp [hwon, Room.pointsOf]
  · simp [hall]

theorem WellFormed.grows_settled {duel : Duel} (h : duel.WellFormed) {referee : Referee}
    {last round : Round} {player : PlayerId} {raw : String} {outcome : Outcome}
    (hcurrent : duel.currentRound? = some last) (hplaying : last.isFinished = false)
    (hjudge : referee.judge duel.room last player raw = .ok (round, outcome)) :
    duel.Grows 1 0 1 (referee.settled duel round) := by
  have hlast := h.rounds_eq hcurrent
  have hrounds : RoundsStep referee duel (referee.settled duel round) := .of_replaced hlast
    (by rw [h.settled_eq referee hcurrent (Referee.number_of_judge hjudge)])
    (.guessed hplaying hjudge)
  have hguesses : (referee.concluded duel.room round).guesses.length = last.guesses.length + 1 := by
    obtain ⟨-, -, -, rfl⟩ := referee.judge_eq_ok_iff.1 hjudge
    simp [concluded_eq, Referee.record]
  have hcount : duel.guessCount =
      (duel.rounds.dropLast.flatMap Round.guesses).length + last.guesses.length := by
    rw [guessCount, hlast, List.dropLast_concat]
    simp
  have hlength : duel.rounds.length = duel.rounds.dropLast.length + 1 := by
    rw [hlast, List.dropLast_concat]
    simp
  have hpoints (player : PlayerId) := pointsOf_rewarded duel.room round player
  rw [h.settled_eq referee hcurrent (Referee.number_of_judge hjudge)] at hrounds ⊢
  rw [rewarded_eq] at hpoints ⊢
  exact
    { id := rfl
      language := rfl
      createdAt := rfl
      players := List.prefix_refl _
      status := Nat.le_refl _
      points_le := fun player => by
        rw [hpoints]
        split <;> omega
      le_points := fun player => by
        rw [hpoints]
        split <;> omega
      rounds := fun i r hr => by
        obtain ⟨r', hr', hstep⟩ := hrounds.old i r hr
        exact ⟨r', hr', grows_of_roundStep hstep⟩
      le_rounds := by
        rw [List.length_append, hlength]
        exact Nat.le_refl _
      le_guesses := by
        rw [hcount, guessCount, List.flatMap_append, List.length_append, List.flatMap_singleton,
          hguesses]
        simp [Nat.add_assoc] }

theorem grows_closed (duel : Duel) : duel.Grows 0 0 0 (Referee.closed duel) where
  id := rfl
  language := rfl
  createdAt := rfl
  players := List.prefix_refl _
  status := by
    show duel.room.status.rank ≤ 2
    cases duel.room.status <;> decide
  points_le _ := Int.le_refl _
  le_points player := by simp [Referee.closed, Room.pointsOf]
  rounds i round hround := ⟨round, hround, .refl round⟩
  le_rounds := Nat.le_refl _
  le_guesses := Nat.le_refl _

theorem WellFormed.grows_effect {duel duel' : Duel} (h : duel.WellFormed) {referee : Referee}
    {change : Change} {events : List Event} (heffect : referee.Effect duel change duel' events) :
    duel.Grows 1 1 1 duel' := by
  cases heffect with
  | enter hadmissible hrunning =>
      exact (grows_entered duel _).mono (by omega) (by omega) (by omega)
  | pair hadmissible hfull hfirst hopen =>
      exact ((grows_entered duel _).trans (grows_opened hopen)).mono (by omega) (by omega)
        (by omega)
  | guess hplayable hactive hjudge =>
      have hwf := h.active? (playable_iff.1 hplayable).2 hactive
      have hguess := hwf.grows_settled (referee.currentRound?_active? hactive)
        (referee.isFinished_active? hactive) hjudge
      exact ((grows_active? hactive).trans hguess).mono (by omega) (by omega) (by omega)
  | start hplayable hactive =>
      exact (grows_active? hactive).mono (by omega) (by omega) (by omega)
  | close => exact (grows_closed duel).mono (by omega) (by omega) (by omega)

/-! ### A closed room -/

/-- Nothing is left to be done in a closed room but to close it again. -/
theorem after_of_closed {duel : Duel} (h : duel.room.status = .closed) (ply : Ply) :
    ply.after duel = duel := by
  rcases ply.after_cases duel with hsame | ⟨events, heffect⟩
  · exact hsame
  · have hrefused (player : PlayerId) : Referee.inadmissible? duel player ≠ none := by
      simp [Referee.inadmissible?, h]
    have hunplayable (player : PlayerId) : Referee.unplayable? duel player ≠ none := by
      simp [Referee.unplayable?, h]
    generalize ply.after duel = duel' at heffect ⊢
    generalize ply.change = change at heffect
    cases heffect with
    | enter hadmissible hrunning => exact (hrefused _ hadmissible).elim
    | pair hadmissible hfull hfirst hopen => exact (hrefused _ hadmissible).elim
    | guess hplayable hactive hjudge => exact (hunplayable _ hplayable).elim
    | start hplayable hactive => exact (hunplayable _ hplayable).elim
    | close => rw [Referee.closed, ← h]

theorem course_of_closed {duel : Duel} (h : duel.room.status = .closed) (plies : List Ply) :
    duel.course plies = duel := by
  induction plies with
  | nil => rfl
  | cons ply plies ih =>
      show (ply.after duel).course plies = duel
      rw [after_of_closed h]
      exact ih

/-! ### Every duel that arises -/

/-- An attempt that succeeds only adds to a duel: the room keeps its id, its language and the
time at which it came into being, the roster is added to at its end, and the room does not
go back to an earlier stage. Nobody loses points or wins more than one. Every round stays in
its place with its number, target, limit, players and starting time; its guesses are added
to at their end, whoever has won or lost it stands so for good, and once it has ended it
stays as it is. At most one round and one guess are added. And a closed room stays as it is,
whatever is attempted. -/
theorem grows_of_play? {duel : Duel} (h : duel.Arises) :
    (∀ (ply : Ply) (duel' : Duel) (events : List Event), ply.play? duel = .ok (duel', events) →
      duel.Grows 1 1 1 duel') ∧
    (duel.room.status = .closed → ∀ plies, duel.course plies = duel) :=
  ⟨fun _ _ _ hplay => h.wellFormed.grows_effect (Ply.effect_of_play? hplay), course_of_closed⟩

/-- Once the first of two rounds is over Bob guesses, and with it opens the second; later the
room is closed. -/
theorem grows_of_guess_between_rounds :
    (∃ duel' events,
      (Ply.mk Sample.referee (.guess Sample.bob "moist")).play?
        (Sample.after (Sample.twoRounds.take 4)) = .ok (duel', events) ∧
      duel'.rounds.length = 2 ∧ (Sample.after (Sample.twoRounds.take 4)).Grows 1 1 1 duel') ∧
    (Sample.after Sample.twoRounds).room.status = .closed ∧
    ∀ plies, (Sample.after Sample.twoRounds).course plies = Sample.after Sample.twoRounds := by
  have hclosed : (Sample.after Sample.twoRounds).room.status = .closed := by decide +kernel
  have hrounds : (((Ply.mk Sample.referee (.guess Sample.bob "moist")).play?
      (Sample.after (Sample.twoRounds.take 4))).toOption.map fun p => p.1.rounds.length) =
      some 2 := by
    decide +kernel
  obtain ⟨⟨duel', events⟩, hplay, hlength⟩ := Option.map_eq_some_iff.1 hrounds
  have hplay' : (Ply.mk Sample.referee (.guess Sample.bob "moist")).play?
      (Sample.after (Sample.twoRounds.take 4)) = .ok (duel', events) := by
    revert hplay
    cases (Ply.mk Sample.referee (.guess Sample.bob "moist")).play?
      (Sample.after (Sample.twoRounds.take 4)) with
    | error failure => exact fun hplay => by cases hplay
    | ok given => exact fun hplay => congrArg Except.ok (Option.some.inj hplay)
  exact ⟨⟨duel', events, hplay', hlength,
    (grows_of_play? (Sample.arises_after _)).1 _ _ _ hplay'⟩, hclosed,
    (grows_of_play? (Sample.arises_after _)).2 hclosed⟩

end Duel

end WordDuel
