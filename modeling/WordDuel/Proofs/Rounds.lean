import WordDuel.Proofs.Structure
/-!
# WordDuel.Proofs.Rounds

**What becomes of the rounds.** In one attempt at most one guess is put down, in the last
round or in one that is opened for it, and the other rounds stay as they are
(`WellFormed.rounds_after`). What a new round has and a guess keeps is therefore true of
every round of every duel that can come about (`Reachable.forall_round`).
-/

namespace WordDuel

/-- What can become of a round of a room in one attempt. -/
inductive Referee.RoundStep (referee : Referee) (room : Room) (round : Round) : Round → Prop
  /-- It stays as it is. -/
  | kept : RoundStep referee room round round
  /-- A guess is put down in it, which may end it. -/
  | guessed {player : PlayerId} {raw : String} {round' : Round} {outcome : Outcome}
    (playing : round.isFinished = false)
    (judged : referee.judge room round player raw = .ok (round', outcome)) :
    RoundStep referee room round (referee.concluded room round')

namespace Duel

/-! ### One attempt -/

theorem getElem?_concat_iff {earlier : List Round} {last round : Round} {i : Nat} :
    (earlier ++ [last])[i]? = some round ↔
      earlier[i]? = some round ∨ i = earlier.length ∧ round = last := by
  rcases Nat.lt_trichotomy i earlier.length with hlt | heq | hgt
  · rw [List.getElem?_append_left hlt]
    simp [Nat.ne_of_lt hlt]
  · simp [heq, eq_comm]
  · have hout : ¬i < earlier.length := Nat.not_lt_of_gt hgt
    rw [List.getElem?_append_right (Nat.le_of_lt hgt)]
    simp [hout, Nat.ne_of_gt hgt, Nat.sub_ne_zero_of_lt hgt]

/-- What becomes of the rounds of a duel, under a referee, if it turns into another duel:
each stays in its place and takes a step, and whatever comes after them is a new round that
takes a step. -/
structure RoundsStep (referee : Referee) (duel duel' : Duel) : Prop where
  /-- What there was is still there. -/
  old : ∀ (i : Nat) (round : Round), duel.rounds[i]? = some round →
    ∃ round', duel'.rounds[i]? = some round' ∧ referee.RoundStep duel.room round round'
  /-- What is new was opened. -/
  new : ∀ (i : Nat) (round' : Round), duel.rounds.length ≤ i → duel'.rounds[i]? = some round' →
    ∃ before target, referee.RoundStep before.room (referee.newRound before target) round'

theorem RoundsStep.of_same {referee : Referee} {duel duel' : Duel}
    (hrounds : duel'.rounds = duel.rounds) : RoundsStep referee duel duel' where
  old i round hround := ⟨round, by rw [hrounds, hround], .kept⟩
  new i round' hi hround := by
    rw [hrounds, List.getElem?_eq_none hi] at hround
    cases hround

theorem RoundsStep.of_opened {referee : Referee} {duel duel' : Duel} {target : String}
    {round : Round} (before : Duel) (hrounds : duel'.rounds = duel.rounds ++ [round])
    (hstep : referee.RoundStep before.room (referee.newRound before target) round) :
    RoundsStep referee duel duel' where
  old i r hr := ⟨r, by rw [hrounds, getElem?_concat_iff]; exact .inl hr, .kept⟩
  new i round' hi hround := by
    rw [hrounds, getElem?_concat_iff] at hround
    rcases hround with hround | ⟨-, rfl⟩
    · rw [List.getElem?_eq_none hi] at hround
      cases hround
    · exact ⟨before, target, hstep⟩

theorem RoundsStep.of_replaced {referee : Referee} {duel duel' : Duel} {last round : Round}
    (hlast : duel.rounds = duel.rounds.dropLast ++ [last])
    (hrounds : duel'.rounds = duel.rounds.dropLast ++ [round])
    (hstep : referee.RoundStep duel.room last round) : RoundsStep referee duel duel' where
  old i r hr := by
    rw [hlast, getElem?_concat_iff] at hr
    rw [hrounds]
    rcases hr with hr | ⟨rfl, rfl⟩
    · exact ⟨r, getElem?_concat_iff.2 (.inl hr), .kept⟩
    · exact ⟨round, getElem?_concat_iff.2 (.inr ⟨rfl, rfl⟩), hstep⟩
  new i round' hi hround := by
    rw [hlast, List.length_append, List.length_singleton] at hi
    rw [hrounds, List.getElem?_eq_none (by simpa using hi)] at hround
    cases hround

theorem judge_opened (referee : Referee) (duel : Duel) (opened round : Round) (player : PlayerId)
    (raw : String) : referee.judge (duel.opened opened).room round player raw =
      referee.judge duel.room round player raw := by
  simp only [Referee.judge, Duel.opened]

/-- In one attempt no round goes away, one at most is opened, and one at most has a guess
put down in it. -/
theorem WellFormed.rounds_effect {duel duel' : Duel} (h : duel.WellFormed) {referee : Referee}
    {change : Change} {events : List Event} (heffect : referee.Effect duel change duel' events) :
    RoundsStep referee duel duel' := by
  cases heffect with
  | enter hadmissible hrunning => exact .of_same rfl
  | @pair player round hadmissible hfull hfirst hopen =>
      obtain ⟨-, target, -, rfl⟩ := referee.opening?_eq_ok_iff.1 hopen
      exact .of_opened (Referee.entered duel player) rfl .kept
  | @guess player raw active round outcome hplayable hactive hjudge =>
      have hwf := h.active? (playable_iff.1 hplayable).2 hactive
      have hcurrent := referee.currentRound?_active? hactive
      have hplaying := referee.isFinished_active? hactive
      rw [hwf.settled_eq referee hcurrent (Referee.number_of_judge hjudge)]
      rcases referee.active?_cases hactive with ⟨hround, -, hsame⟩ | ⟨-, hopen, hopened⟩
      · rw [hsame] at hjudge ⊢
        exact .of_replaced (h.rounds_eq hround) rfl (.guessed hplaying hjudge)
      · obtain ⟨-, target, -, hround⟩ := referee.opening?_eq_ok_iff.1 hopen
        rw [hopened] at hjudge ⊢
        rw [judge_opened, hround] at hjudge
        rw [hround] at hplaying
        refine .of_opened duel ?_ (.guessed hplaying hjudge)
        simp [opened, Referee.concluded, Referee.allDone]
  | @start player active hplayable hactive =>
      rcases referee.active?_cases hactive with ⟨-, -, hsame⟩ | ⟨-, hopen, hopened⟩
      · rw [hsame]
        exact .of_same rfl
      · obtain ⟨-, target, -, hround⟩ := referee.opening?_eq_ok_iff.1 hopen
        rw [hopened, hround]
        exact .of_opened duel rfl .kept
  | close => exact .of_same rfl

theorem WellFormed.rounds_after {duel : Duel} (h : duel.WellFormed) (ply : Ply) :
    RoundsStep ply.referee duel (ply.after duel) := by
  rcases ply.after_cases duel with hsame | ⟨events, heffect⟩
  · rw [hsame]
    exact .of_same rfl
  · exact h.rounds_effect heffect

/-- What a round has that was opened, and no guess takes away, the rounds have after an attempt
if they had it before. -/
theorem RoundsStep.forall_round {referee : Referee} {P : Round → Prop} {duel duel' : Duel}
    (h : RoundsStep referee duel duel')
    (hnew : ∀ (duel : Duel) (target : String), P (referee.newRound duel target))
    (hjudge : ∀ (room : Room) (round round' : Round) (player : PlayerId) (raw : String)
      (outcome : Outcome), P round → referee.judge room round player raw = .ok (round', outcome) →
      P (referee.concluded room round'))
    (hrounds : ∀ round ∈ duel.rounds, P round) : ∀ round ∈ duel'.rounds, P round := by
  have hstep {room : Room} {round round' : Round} (hround : P round)
      (htaken : referee.RoundStep room round round') : P round' := by
    cases htaken with
    | kept => exact hround
    | guessed _ hjudged => exact hjudge _ _ _ _ _ _ hround hjudged
  intro round hround
  obtain ⟨i, hi⟩ := List.mem_iff_getElem?.1 hround
  rcases Nat.lt_or_ge i duel.rounds.length with hlt | hge
  · obtain ⟨round', hround', htaken⟩ := h.old i _ (List.getElem?_eq_getElem hlt)
    rw [hi] at hround'
    obtain rfl := Option.some.inj hround'
    exact hstep (hrounds _ (List.getElem_mem hlt)) htaken
  · obtain ⟨before, target, htaken⟩ := h.new i round hge hi
    exact hstep (hnew _ _) htaken

/-! ### Any number of attempts -/

/-- What every new round has and no guess takes away, every round has. -/
theorem Reachable.forall_round {P : Round → Prop}
    (hnew : ∀ (referee : Referee) (duel : Duel) (target : String),
      1 ≤ referee.rules.maxAttempts → P (referee.newRound duel target))
    (hjudge : ∀ (referee : Referee) (room : Room) (round round' : Round) (player : PlayerId)
      (raw : String) (outcome : Outcome), P round →
      referee.judge room round player raw = .ok (round', outcome) →
      P (referee.concluded room round'))
    {duel : Duel} (h : duel.Reachable) : ∀ round ∈ duel.rounds, P round := by
  induction h with
  | created referee id language creator =>
      intro round hround
      cases hround
  | @played duel ply guesses reachable ih =>
      exact (reachable.wellFormed.rounds_after ply).forall_round
        (fun duel target => hnew _ duel target guesses) (hjudge _) ih

end Duel

end WordDuel
