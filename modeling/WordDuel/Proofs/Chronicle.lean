import WordDuel.Proofs.Points
/-!
# WordDuel.Proofs.Chronicle

**The announcements tell what has happened.** Whoever listens from the creation of a room on
knows which rounds have been opened and which have ended, who is in the room and how the
points stand. The announcements of a guess are put together from parts that are made at
different times, the first of them before the points are paid; that they agree with the duel
all the same is `Tells`, which every attempt preserves.
-/

namespace WordDuel

/-! ### Kinds of announcements -/

namespace Event

/-- Whether a round is opened or ends. -/
def isMilestone : Event → Bool
  | .roundStarted _ _ => true
  | .roundFinished _ => true
  | _ => false

/-- The number and the limit of the round that is opened. -/
def opened? : Event → Option (Nat × Nat)
  | .roundStarted number maxAttempts => some (number, maxAttempts)
  | _ => none

/-- The roster that is announced. -/
def roster? : Event → Option (List PlayerId)
  | .roomCreated _ players => some players
  | .playerJoined _ players => some players
  | _ => none

/-- The points that are announced. -/
def board? : Event → Option (List Score)
  | .scoresUpdated scores => some scores
  | _ => none

end Event

/-- What is announced about a round apart from points: that it is opened, and its end once it
has ended. -/
def Round.milestones (round : Round) : List Event :=
  .roundStarted round.number round.maxAttempts ::
    if round.status = .ended then [.roundFinished round.number] else []

/-- What is announced in a room from its creation on. -/
def Referee.announced (referee : Referee) (id : RoomId) (language : Language) (creator : PlayerId)
    (plies : List Ply) : List Event :=
  (referee.createRoom id language creator).2 ++
    (referee.createRoom id language creator).1.courseEvents plies

namespace Duel

/-- The points that the first rounds are worth, in roster order. -/
def boardAfter (duel : Duel) (k : Nat) : List Score :=
  duel.room.players.map fun player =>
    ⟨player, ((duel.rounds.take k).countP fun r => r.standingOf? player = some .won : Nat)⟩

/-- The number of times that a player has won or lost a round. -/
def verdicts (duel : Duel) : Nat :=
  (duel.rounds.flatMap fun round => duel.room.players.filter round.isDone).length

/-- The number of rounds that have ended. -/
def endedRounds (duel : Duel) : Nat := duel.rounds.countP fun round => round.status = .ended

/-- With the end of each round come given points. -/
def Paid (board : Nat → List Score) (log : List Event) : Prop :=
  ∀ i k, log[i]? = some (.roundFinished k) → log[i + 1]? = some (.scoresUpdated (board k))

/-- Some announcements tell how a duel has come to be what it is. -/
structure Tells (duel : Duel) (log : List Event) : Prop where
  milestones : log.filter Event.isMilestone = duel.rounds.flatMap Round.milestones
  paid : Paid duel.boardAfter log
  roster : (log.filterMap Event.roster?).getLast? = some duel.room.players
  board : ∀ scores, (log.filterMap Event.board?).getLast? = some scores →
    scores = duel.room.scoreboard
  pointless : log.filterMap Event.board? = [] → ∀ player, duel.room.pointsOf player = 0
  boards : (log.filterMap Event.board?).length = duel.verdicts + duel.endedRounds

variable {duel : Duel} {referee : Referee} {log : List Event}

/-! ### Announcements one after the other -/

theorem Paid.append {board : Nat → List Score} {events : List Event} (hlog : Paid board log)
    (hevents : Paid board events) : Paid board (log ++ events) := by
  intro i k hi
  rcases Nat.lt_or_ge i log.length with hlt | hge
  · rw [List.getElem?_append_left hlt] at hi
    have hnext := hlog i k hi
    rw [List.getElem?_append_left (List.getElem?_eq_some_iff.1 hnext).1]
    exact hnext
  · rw [List.getElem?_append_right hge] at hi
    rw [List.getElem?_append_right (Nat.le_succ_of_le hge), Nat.succ_sub hge]
    exact hevents _ k hi

theorem Paid.congr {board board' : Nat → List Score} (h : Paid board log)
    (hboard : ∀ k, Event.roundFinished k ∈ log → board' k = board k) : Paid board' log := by
  intro i k hi
  rw [hboard k (List.mem_of_getElem? hi)]
  exact h i k hi

/-- Nothing has to be paid where no round ends. -/
theorem paid_of_unfinished {board : Nat → List Score} (h : ∀ k, Event.roundFinished k ∉ log) :
    Paid board log :=
  fun _ k hi => (h k (List.mem_of_getElem? hi)).elim

/-- The number of a round is not larger than the number of rounds. -/
theorem number_le_of_numbered
    (h : duel.rounds.map Round.number = List.range' 1 duel.rounds.length) {round : Round}
    (hround : round ∈ duel.rounds) : round.number ≤ duel.rounds.length := by
  have hmem : round.number ∈ List.range' 1 duel.rounds.length := h ▸ List.mem_map_of_mem hround
  rw [List.mem_range'_1] at hmem
  omega

theorem finished_mem_milestones {round : Round} {k : Nat} :
    Event.roundFinished k ∈ round.milestones ↔ round.number = k ∧ round.status = .ended := by
  by_cases hended : round.status = .ended <;> simp [Round.milestones, hended, eq_comm]

/-- A round of which the end has been announced has ended. -/
theorem Tells.exists_ended (h : duel.Tells log) {k : Nat} (hk : Event.roundFinished k ∈ log) :
    ∃ round ∈ duel.rounds, round.number = k ∧ round.status = .ended := by
  have hmem : Event.roundFinished k ∈ duel.rounds.flatMap Round.milestones := by
    rw [← h.milestones]
    exact List.mem_filter.2 ⟨hk, rfl⟩
  obtain ⟨round, hround, hmilestone⟩ := List.mem_flatMap.1 hmem
  exact ⟨round, hround, finished_mem_milestones.1 hmilestone⟩

/-- While the last round is being played no end has been announced but of an earlier one. -/
theorem Tells.le_of_finished (h : duel.Tells log)
    (hnumbered : duel.rounds.map Round.number = List.range' 1 duel.rounds.length)
    {earlier : List Round} {last : Round} (hrounds : duel.rounds = earlier ++ [last])
    (hlast : last.status ≠ .ended) {k : Nat} (hk : Event.roundFinished k ∈ log) :
    k ≤ earlier.length := by
  obtain ⟨round, hround, rfl, hended⟩ := h.exists_ended hk
  have hle := number_le_of_numbered hnumbered hround
  rw [hrounds] at hround hnumbered hle
  rw [List.length_append, List.length_singleton] at hnumbered hle
  obtain ⟨hnumber, hothers⟩ := number_of_numbered hnumbered
  rcases List.mem_append.1 hround with hround | hround
  · have hne := hothers round hround
    omega
  · rw [List.mem_singleton.1 hround] at hended
    exact (hlast hended).elim

theorem verdicts_concat (room : Room) (rounds : List Round) (round : Round) :
    verdicts ⟨room, rounds ++ [round]⟩ =
      verdicts ⟨room, rounds⟩ + room.players.countP round.isDone := by
  rw [verdicts, verdicts, List.flatMap_append, List.flatMap_singleton, List.length_append,
    List.countP_eq_length_filter]

/-! ### Opening a round -/

theorem boardAfter_opened {round : Round} {k : Nat} (hk : k ≤ duel.rounds.length) :
    (duel.opened round).boardAfter k = duel.boardAfter k := by
  rw [boardAfter, boardAfter, opened, List.take_append_of_le_length hk]

theorem Tells.opened (h : duel.Tells log)
    (hnumbered : duel.rounds.map Round.number = List.range' 1 duel.rounds.length) {round : Round}
    (hopen : referee.opening? duel = .ok round) :
    (duel.opened round).Tells (log ++ [.roundStarted round.number round.maxAttempts]) := by
  obtain ⟨-, target, -, rfl⟩ := referee.opening?_eq_ok_iff.1 hopen
  have hnobody (player : PlayerId) : (referee.newRound duel target).isDone player = false := by
    rw [Round.isDone, standingOf?_newRound]
    split <;> rfl
  have hplaying : (referee.newRound duel target).status = .playing := rfl
  refine
    { milestones := ?_
      paid := (h.paid.congr ?_).append (paid_of_unfinished (by simp))
      roster := ?_
      board := ?_
      pointless := ?_
      boards := ?_ }
  · simp [h.milestones, Duel.opened, Round.milestones, Event.isMilestone, hplaying]
  · intro k hk
    obtain ⟨round, hround, rfl, -⟩ := h.exists_ended hk
    exact boardAfter_opened (number_le_of_numbered hnumbered hround)
  · simpa [Event.roster?, Duel.opened] using h.roster
  · simpa [Event.board?, Duel.opened, Room.scoreboard, Room.pointsOf] using h.board
  · simpa [Event.board?, Duel.opened, Room.pointsOf] using h.pointless
  · have hopened : (duel.opened (referee.newRound duel target)).verdicts = duel.verdicts := by
      rw [Duel.opened, verdicts_concat, List.countP_eq_zero.2 fun player _ => by simp [hnobody]]
      rfl
    rw [hopened]
    simpa [List.filterMap_cons, Event.board?, endedRounds, Duel.opened, hplaying] using h.boards

theorem Tells.active? (h : duel.Tells log)
    (hnumbered : duel.rounds.map Round.number = List.range' 1 duel.rounds.length)
    {active : Referee.Active} (hactive : referee.active? duel = .ok active) :
    active.duel.Tells (log ++ active.events) := by
  rcases referee.active?_cases hactive with ⟨-, -, hsame⟩ | ⟨-, hopen, hopened⟩
  · rw [hsame, List.append_nil]
    exact h
  · rw [hopened]
    exact h.opened hnumbered hopen

/-! ### Guessing -/

theorem isDone_record {round : Round} (guess : Guess) (standing : Standing) (player : PlayerId) :
    (Referee.record round guess standing).isDone player =
      if standing.isTerminal ∧ player = guess.player then true else round.isDone player := by
  rw [Round.isDone, Referee.standingOf?_record]
  split
  · next hdone => exact hdone.1
  · rfl

/-- A guess is one more verdict if its player is done with it. -/
theorem countP_isDone_record {players : List PlayerId} (hnodup : players.Nodup) {round : Round}
    {guess : Guess} {standing : Standing} (hplayer : guess.player ∈ players)
    (hplaying : round.standingOf? guess.player = some .playing) :
    players.countP (Referee.record round guess standing).isDone =
      players.countP round.isDone + if standing.isTerminal then 1 else 0 := by
  have hnotDone : round.isDone guess.player = false := by
    rw [Round.isDone, hplaying]
    rfl
  obtain ⟨before, after, rfl⟩ := List.append_of_mem hplayer
  have hothers : ∀ other ∈ before ++ after, other ≠ guess.player := by
    rintro other hother rfl
    exact (List.nodup_cons.1 (List.perm_middle.nodup_iff.1 hnodup)).1 hother
  have hsame (players : List PlayerId) (hplayers : ∀ other ∈ players, other ≠ guess.player) :
      players.countP (Referee.record round guess standing).isDone =
        players.countP round.isDone :=
    List.countP_congr fun other hother => by simp [isDone_record, hplayers other hother]
  rw [List.countP_append, List.countP_cons, hsame before fun o ho => hothers o (by simp [ho]),
    hsame after fun o ho => hothers o (by simp [ho]), List.countP_append, List.countP_cons,
    isDone_record, hnotDone]
  by_cases hdone : standing.isTerminal <;> simp [hdone, Nat.add_assoc]

/-- When every round has ended all of them count. -/
theorem Accounted.scoreboard_eq (h : duel.Accounted)
    (hended : ∀ round ∈ duel.rounds, round.status = .ended) :
    duel.room.scoreboard = duel.boardAfter duel.rounds.length := by
  rw [Room.scoreboard, boardAfter, List.take_length]
  refine List.map_congr_left fun player hplayer => ?_
  have hwon : duel.roundsWon player =
      duel.rounds.countP fun r => r.standingOf? player = some .won :=
    List.countP_congr fun round hround => by simp [hended round hround]
  rw [h.points player hplayer, hwon]

section Settled

variable {room : Room} {last round : Round} {player : PlayerId} {raw : String} {outcome : Outcome}

theorem filter_guessEvents :
    (Referee.guessEvents room round outcome).filter Event.isMilestone =
      if Referee.allDone room round then [.roundFinished round.number] else [] := by
  rw [Referee.guessEvents]
  by_cases hdone : outcome.standing.isTerminal <;> by_cases hall : Referee.allDone room round <;>
    simp [hdone, hall, List.filter_cons, Event.isMilestone]

theorem roster_guessEvents :
    (Referee.guessEvents room round outcome).filterMap Event.roster? = [] := by
  rw [Referee.guessEvents]
  by_cases hdone : outcome.standing.isTerminal <;> by_cases hall : Referee.allDone room round <;>
    simp [hdone, hall, Event.roster?]

theorem board_guessEvents :
    (Referee.guessEvents room round outcome).filterMap Event.board? =
      (if outcome.standing.isTerminal then [room.scoreboard] else []) ++
        if Referee.allDone room round then [(Referee.pay room round).scoreboard] else [] := by
  rw [Referee.guessEvents]
  by_cases hdone : outcome.standing.isTerminal <;> by_cases hall : Referee.allDone room round <;>
    simp [hdone, hall, List.filterMap_cons, Event.board?]

theorem paid_guessEvents {board : Nat → List Score}
    (hboard : Referee.allDone room round → (Referee.pay room round).scoreboard =
      board round.number) : Paid board (Referee.guessEvents room round outcome) := by
  rw [Referee.guessEvents]
  refine .append (paid_of_unfinished fun k => ?_) ?_
  · split <;> simp
  · split
    · next hall =>
      intro i k hi
      rw [hboard hall]
      cases i with
      | zero =>
          obtain rfl := Event.roundFinished.inj (Option.some.inj hi)
          rfl
      | succ i =>
          rw [List.getElem?_cons_succ] at hi
          cases List.mem_singleton.1 (List.mem_of_getElem? hi)
    · exact paid_of_unfinished (by simp)

theorem milestones_concluded (hplaying : last.isFinished = false)
    (hjudge : referee.judge room last player raw = .ok (round, outcome)) :
    (referee.concluded room round).milestones = last.milestones ++
      if Referee.allDone room round then [.roundFinished round.number] else [] := by
  have hnotEnded : last.status ≠ .ended := by simpa [Round.isFinished] using hplaying
  obtain ⟨-, -, -, rfl⟩ := referee.judge_eq_ok_iff.1 hjudge
  rw [concluded_eq]
  generalize hall : Referee.allDone _ _ = all
  cases all <;> simp [Round.milestones, Referee.record, hnotEnded]

/-- The points that are announced last are those that the room has after the guess. -/
theorem board_of_guess {scores : List Score}
    (h : ∀ scores, (log.filterMap Event.board?).getLast? = some scores → scores = room.scoreboard)
    (hscores : ((log ++ Referee.guessEvents room round outcome).filterMap Event.board?).getLast? =
      some scores) : scores = (Referee.rewarded room round).scoreboard := by
  rw [List.filterMap_append, board_guessEvents] at hscores
  rw [Referee.rewarded]
  by_cases hall : Referee.allDone room round
  · rw [if_pos hall, ← List.append_assoc, List.getLast?_concat] at hscores
    rw [if_pos hall, Option.some.inj hscores]
  · rw [if_neg hall, List.append_nil] at hscores
    rw [if_neg hall]
    by_cases hdone : outcome.standing.isTerminal
    · rw [if_pos hdone, List.getLast?_concat] at hscores
      exact (Option.some.inj hscores).symm
    · rw [if_neg hdone, List.append_nil] at hscores
      exact h scores hscores

/-- As long as no points are announced nobody is paid. -/
theorem rewarded_of_pointless
    (h : (log ++ Referee.guessEvents room round outcome).filterMap Event.board? = []) :
    log.filterMap Event.board? = [] ∧ Referee.rewarded room round = room := by
  rw [List.filterMap_append, board_guessEvents, List.append_eq_nil_iff,
    List.append_eq_nil_iff] at h
  obtain ⟨hlog, -, hall⟩ := h
  refine ⟨hlog, ?_⟩
  rw [Referee.rewarded]
  split
  · next hdone =>
    rw [if_pos hdone] at hall
    cases hall
  · rfl

/-- The number of verdicts that a guess adds. -/
theorem countP_isDone_concluded (hnodup : room.players.Nodup) (hplayer : player ∈ room.players)
    (hjudge : referee.judge room last player raw = .ok (round, outcome)) :
    room.players.countP (referee.concluded room round).isDone =
      room.players.countP last.isDone + if outcome.standing.isTerminal then 1 else 0 := by
  have hdone : (referee.concluded room round).isDone = round.isDone := by
    rw [concluded_eq]
    rfl
  obtain ⟨hbarred, -, -, hround⟩ := referee.judge_eq_ok_iff.1 hjudge
  rw [hdone, hround]
  exact countP_isDone_record hnodup hplayer (Referee.barred?_eq_none_iff.1 hbarred).1

/-- The points that are paid when a round ends are those that the rounds up to it are worth. -/
theorem scoreboard_pay {referee : Referee} {earlier : List Round}
    (haccounted : Accounted ⟨Referee.rewarded room round,
      earlier ++ [referee.concluded room round]⟩)
    (hearlier : ∀ r ∈ earlier, r.status = .ended) (hnumber : round.number = earlier.length + 1)
    (hended : (referee.concluded room round).status = .ended)
    (hall : Referee.allDone room round) :
    (Referee.pay room round).scoreboard = boardAfter ⟨Referee.rewarded room round,
      earlier ++ [referee.concluded room round]⟩ round.number := by
  have hscores := haccounted.scoreboard_eq fun r hr => by
    rcases List.mem_append.1 hr with hr | hr
    · exact hearlier r hr
    · rw [List.mem_singleton.1 hr]
      exact hended
  rw [List.length_append, List.length_singleton, ← hnumber] at hscores
  rw [← hscores, Referee.rewarded, if_pos hall]

end Settled

theorem Tells.settled (h : duel.Tells log) (hwf : duel.WellFormed) {last round : Round}
    {player : PlayerId} {raw : String} {outcome : Outcome}
    (hcurrent : duel.currentRound? = some last) (hplaying : last.isFinished = false)
    (hjudge : referee.judge duel.room last player raw = .ok (round, outcome))
    (haccounted : (referee.settled duel round).Accounted) :
    (referee.settled duel round).Tells
      (log ++ Referee.guessEvents duel.room round outcome) := by
  have hnumber := Referee.number_of_judge hjudge
  have hmem := hwf.mem_rounds hcurrent
  have hnotEnded : last.status ≠ .ended := by simpa [Round.isFinished] using hplaying
  have hstatus : (referee.concluded duel.room round).status = .ended ↔
      Referee.allDone duel.room round := by
    rw [concluded_eq, Referee.status_of_judge hjudge]
    split <;> simp [*]
  have hplayer : player ∈ duel.room.players := by
    obtain ⟨hbarred, -⟩ := referee.judge_eq_ok_iff.1 hjudge
    rw [← (hwf.standings last hmem).2, (Referee.barred?_eq_none_iff.1 hbarred).1]
    rfl
  obtain ⟨earlier, hrounds⟩ : ∃ earlier, duel.rounds = earlier ++ [last] :=
    ⟨_, hwf.rounds_eq hcurrent⟩
  have hle {k : Nat} (hk : Event.roundFinished k ∈ log) : k ≤ earlier.length :=
    h.le_of_finished hwf.numbered hrounds hnotEnded hk
  rw [hwf.settled_eq referee hcurrent hnumber, hrounds, List.dropLast_concat] at haccounted ⊢
  have hended := hwf.ended
  have hnumbered := hwf.numbered
  rw [hrounds, List.dropLast_concat] at hended
  rw [hrounds, List.length_append, List.length_singleton] at hnumbered
  have hpaid := fun hall => scoreboard_pay haccounted hended
    (hnumber.trans (number_of_numbered hnumbered).1) (hstatus.2 hall) hall
  refine
    { milestones := ?_
      paid := (h.paid.congr fun k hk => ?_).append (paid_guessEvents hpaid)
      roster := ?_
      board := fun scores hscores => board_of_guess h.board hscores
      pointless := fun hnone other => ?_
      boards := ?_ }
  · rw [List.filter_append, h.milestones, filter_guessEvents, hrounds, List.flatMap_append,
      List.flatMap_append, List.flatMap_singleton, List.flatMap_singleton,
      milestones_concluded hplaying hjudge, List.append_assoc]
  · rw [boardAfter, boardAfter, hrounds, List.take_append_of_le_length (hle hk),
      List.take_append_of_le_length (hle hk), rewarded_eq]
  · rw [List.filterMap_append, roster_guessEvents, List.append_nil, h.roster, rewarded_eq]
  · obtain ⟨hlog, hroom⟩ := rewarded_of_pointless hnone
    rw [hroom]
    exact h.pointless hlog other
  · have hverdicts : verdicts ⟨Referee.rewarded duel.room round,
        earlier ++ [referee.concluded duel.room round]⟩ =
        duel.verdicts + if outcome.standing.isTerminal then 1 else 0 := by
      have hbefore : duel.verdicts = verdicts ⟨duel.room, earlier ++ [last]⟩ := by
        rw [← hrounds]
      rw [hbefore, verdicts_concat, verdicts_concat, rewarded_eq,
        countP_isDone_concluded hwf.nodup hplayer hjudge, Nat.add_assoc]
      rfl
    have hendedRounds : endedRounds ⟨Referee.rewarded duel.room round,
        earlier ++ [referee.concluded duel.room round]⟩ =
        duel.endedRounds + if Referee.allDone duel.room round then 1 else 0 := by
      simp [endedRounds, hrounds, List.countP_append, hstatus, hnotEnded]
    rw [hverdicts, hendedRounds, List.filterMap_append, List.length_append, h.boards,
      board_guessEvents, List.length_append]
    split <;> split <;> simp <;> omega

/-! ### Coming in -/

theorem Tells.entered (h : duel.Tells log) (hwf : duel.WellFormed) {player : PlayerId}
    (hadmissible : Referee.inadmissible? duel player = none) :
    (Referee.entered duel player).Tells
      (log ++ [.playerJoined player (Referee.admitted duel.room player).players]) := by
  rcases (hwf.admissible hadmissible).2 with hmember | ⟨hnew, hstatus, halone⟩
  · have hroom : Referee.admitted duel.room player = duel.room :=
      congrArg Duel.room (hwf.entered_eq hmember)
    rw [hwf.entered_eq hmember, hroom]
    exact
      { milestones := by simpa [Event.isMilestone] using h.milestones
        paid := h.paid.append (paid_of_unfinished (by simp))
        roster := by simp [Event.roster?]
        board := by simpa [Event.board?] using h.board
        pointless := by simpa [Event.board?] using h.pointless
        boards := by simpa [List.filterMap_cons, Event.board?] using h.boards }
  · -- Nothing has been played yet, so that no round has ended and no points were announced.
    have hrounds : (Referee.entered duel player).rounds = [] := halone.rounds
    have hboards : log.filterMap Event.board? = [] := by
      rw [← List.length_eq_zero_iff, h.boards]
      simp [verdicts, endedRounds, halone.rounds]
    have hunfinished (k : Nat) : Event.roundFinished k ∉ log := by
      intro hk
      obtain ⟨round, hround, -⟩ := h.exists_ended hk
      rw [halone.rounds] at hround
      cases hround
    have hpoints (other : PlayerId) :
        (Referee.entered duel player).room.pointsOf other = duel.room.pointsOf other := by
      rw [Referee.entered, admitted_eq]
      exact pointsOf_addPlayer duel.room player other
    refine
      { milestones := ?_
        paid := (paid_of_unfinished hunfinished).append (paid_of_unfinished (by simp))
        roster := ?_
        board := ?_
        pointless := fun _ other => (hpoints other).trans (h.pointless hboards other)
        boards := ?_ }
    · simp [h.milestones, halone.rounds, hrounds, Event.isMilestone]
    · simp [Event.roster?, Referee.entered]
    · simp [Event.board?, hboards]
    · simp [List.filterMap_cons, Event.board?, hboards, verdicts, endedRounds, hrounds]

/-! ### Every course of play -/

theorem Tells.effect (h : duel.Tells log) (hwf : duel.WellFormed) (haccounted : duel.Accounted)
    {duel' : Duel} {change : Change} {events : List Event}
    (heffect : referee.Effect duel change duel' events) : duel'.Tells (log ++ events) := by
  cases heffect with
  | enter hadmissible hrunning => exact h.entered hwf hadmissible
  | pair hadmissible hfull hfirst hopen =>
      have hentered := (h.entered hwf hadmissible).opened hwf.numbered hopen
      rwa [List.append_assoc] at hentered
  | guess hplayable hactive hjudge =>
      have hcurrent := referee.currentRound?_active? hactive
      have hplaying := referee.isFinished_active? hactive
      have hactiveWf := hwf.active? (playable_iff.1 hplayable).2 hactive
      rw [← List.append_assoc]
      exact (h.active? hwf.numbered hactive).settled hactiveWf hcurrent hplaying hjudge
        ((haccounted.active? hactive).settled hactiveWf hcurrent hplaying hjudge)
  | start hplayable hactive => exact h.active? hwf.numbered hactive
  | close =>
      rw [List.append_nil]
      exact ⟨h.milestones, h.paid, h.roster, h.board, h.pointless, h.boards⟩

/-- An attempt fails and announces nothing, or has an effect that it announces. -/
theorem announced_cases (ply : Ply) (duel : Duel) :
    (ply.after duel = duel ∧ ply.events duel = []) ∨
      ply.referee.Effect duel ply.change (ply.after duel) (ply.events duel) := by
  rw [Ply.after, Ply.events]
  cases hplay : ply.play? duel with
  | error failure => exact .inl ⟨rfl, rfl⟩
  | ok given => exact .inr (Ply.effect_of_play? hplay)

theorem Tells.course (h : duel.Tells log) (hwf : duel.WellFormed) (haccounted : duel.Accounted)
    (plies : List Ply) : (duel.course plies).Tells (log ++ duel.courseEvents plies) := by
  induction plies generalizing duel log with
  | nil =>
      rw [courseEvents, List.append_nil]
      exact h
  | cons ply plies ih =>
      rw [courseEvents, ← List.append_assoc]
      show ((ply.after duel).course plies).Tells _
      rcases announced_cases ply duel with ⟨hsame, hnothing⟩ | heffect
      · rw [hsame, hnothing, List.append_nil]
        exact ih h hwf haccounted
      · exact ih (h.effect hwf haccounted heffect) (hwf.effect heffect)
          (haccounted.effect hwf heffect)

theorem tells_createRoom (referee : Referee) (id : RoomId) (language : Language)
    (creator : PlayerId) : (referee.createRoom id language creator).1.Tells
      (referee.createRoom id language creator).2 where
  milestones := rfl
  paid := paid_of_unfinished (by simp [Referee.createRoom])
  roster := rfl
  board scores hscores := by cases hscores
  pointless _ player := by
    by_cases hplayer : player = creator <;>
      simp [Referee.createRoom, Room.new, Room.addPlayer, Room.pointsOf, hplayer,
        SortedMap.get?_insert_of_ne]
  boards := rfl

/-! ### What can be read off the announcements -/

theorem Tells.openings (h : duel.Tells log) :
    log.filterMap Event.opened? = duel.rounds.map fun r => (r.number, r.maxAttempts) := by
  have hmilestones : log.filterMap Event.opened? =
      (log.filter Event.isMilestone).filterMap Event.opened? := by
    rw [List.filterMap_filter]
    congr 1
    funext event
    cases event <;> rfl
  rw [hmilestones, h.milestones, List.filterMap_flatMap]
  induction duel.rounds with
  | nil => rfl
  | cons round rounds ih =>
      rw [List.flatMap_cons, List.map_cons, ih, Round.milestones]
      split <;> rfl

/-- The end of a round is announced once if the round has ended. -/
theorem Tells.count_finished (h : duel.Tells log)
    (hnumbered : duel.rounds.map Round.number = List.range' 1 duel.rounds.length) {round : Round}
    (hround : round ∈ duel.rounds) :
    log.count (.roundFinished round.number) = if round.status = .ended then 1 else 0 := by
  have hnodup : (duel.rounds.map Round.number).Nodup := by
    rw [hnumbered]
    exact List.nodup_range'
  obtain ⟨before, after, hrounds⟩ := List.append_of_mem hround
  rw [hrounds, List.map_append, List.map_cons, List.perm_middle.nodup_iff] at hnodup
  have hnone {rounds : List Round} (hrounds : ∀ r ∈ rounds, r ∈ before ++ after) :
      (rounds.flatMap Round.milestones).count (.roundFinished round.number) = 0 := by
    rw [List.count_eq_zero]
    intro hmem
    obtain ⟨r, hr, hmilestone⟩ := List.mem_flatMap.1 hmem
    have hsame := List.mem_map_of_mem (f := Round.number) (hrounds r hr)
    rw [(finished_mem_milestones.1 hmilestone).1, List.map_append] at hsame
    exact (List.nodup_cons.1 hnodup).1 hsame
  have hself : round.milestones.count (.roundFinished round.number) =
      if round.status = .ended then 1 else 0 := by
    rw [Round.milestones]
    split <;> simp
  rw [← List.count_filter (p := Event.isMilestone) rfl, h.milestones, hrounds,
    List.flatMap_append, List.flatMap_cons, List.count_append, List.count_append, hself,
    hnone fun r hr => List.mem_append_left _ hr, hnone fun r hr => List.mem_append_right _ hr,
    Nat.zero_add, Nat.add_zero]

/-! ### The announcements in full -/

/-- Whatever is attempted in a room, under whatever rules: the rounds are numbered 1, 2, … and
have been announced in this order, each with its limit; the end of a round has been announced
once if the round has ended, between its own opening and that of the next round, and not
otherwise, and right after it came the points that the rounds up to this one are worth. The
last roster that was announced is the present one. The last points that were announced are the
present ones, and if there were none nobody has any. Points have been announced as often as a
player has won or lost a round or a round has ended. -/
theorem announced_of_course (referee : Referee) (id : RoomId) (language : Language)
    (creator : PlayerId) (plies : List Ply) :
    let duel := (referee.createRoom id language creator).1.course plies
    let log := referee.announced id language creator plies
    duel.rounds.map Round.number = List.range' 1 duel.rounds.length ∧
    log.filterMap Event.opened? = duel.rounds.map (fun r => (r.number, r.maxAttempts)) ∧
    (∀ round ∈ duel.rounds,
      log.count (.roundFinished round.number) = if round.status = .ended then 1 else 0) ∧
    (∀ k, .roundFinished k ∈ log →
      ∃ round ∈ duel.rounds, round.number = k ∧ round.status = .ended) ∧
    log.filter Event.isMilestone = duel.rounds.flatMap Round.milestones ∧
    (∀ i k, log[i]? = some (.roundFinished k) →
      log[i + 1]? = some (.scoresUpdated (duel.boardAfter k))) ∧
    (log.filterMap Event.roster?).getLast? = some duel.room.players ∧
    (∀ scores, (log.filterMap Event.board?).getLast? = some scores →
      scores = duel.room.scoreboard) ∧
    (log.filterMap Event.board? = [] → ∀ player, duel.room.pointsOf player = 0) ∧
    (log.filterMap Event.board?).length =
      (duel.rounds.flatMap fun round => duel.room.players.filter round.isDone).length +
        duel.rounds.countP fun round => round.status = .ended := by
  intro duel log
  have hcreated := wellFormed_createRoom referee id language creator
  have harises : duel.Arises := ⟨referee, id, language, creator, plies, rfl⟩
  have hnumbered := harises.wellFormed.numbered
  have htells : duel.Tells log := (tells_createRoom referee id language creator).course hcreated
    (accounted_createRoom referee id language creator) plies
  exact ⟨hnumbered, htells.openings, fun round hround => htells.count_finished hnumbered hround,
    fun k hk => htells.exists_ended hk, htells.milestones, htells.paid, htells.roster,
    htells.board, htells.pointless, htells.boards⟩

/-- Alice finds the word, Bob does not; the points are announced three times and change once. -/
example :
    Sample.referee.announced ⟨7⟩ .english Sample.alice
        ((Sample.twoRounds.take 4).map (Ply.mk Sample.referee)) =
      [.roomCreated Sample.alice [Sample.alice],
        .playerJoined Sample.bob [Sample.alice, Sample.bob], .roundStarted 1 2,
        .scoresUpdated [⟨Sample.alice, 0⟩, ⟨Sample.bob, 0⟩],
        .scoresUpdated [⟨Sample.alice, 0⟩, ⟨Sample.bob, 0⟩], .roundFinished 1,
        .scoresUpdated [⟨Sample.alice, 1⟩, ⟨Sample.bob, 0⟩]] := by
  decide +kernel

end Duel

end WordDuel
