import WordDuel.Proofs.Effect
/-!
# WordDuel.Proofs.Structure

**What every duel looks like.** A duel that can come about is `WellFormed`: its roster,
its points, its status and its rounds fit together. Opening a round and putting a guess
down are the only two changes that touch the rounds, and both leave all of them alone
but the last: `Ready.opened` and `WellFormed.withLast` say what is left of the invariant
to be shown for them.
-/

namespace WordDuel

namespace Duel

/-! ### The invariant -/

/-- One player is in, and nothing has been played. -/
structure Alone (duel : Duel) : Prop where
  players : duel.room.players.length = 1
  rounds : duel.rounds = []
  current : duel.room.currentRound = none

/-- Both players are in, and there is something to play. -/
structure Paired (duel : Duel) : Prop where
  players : duel.room.players.length = maxPlayers
  rounds : duel.rounds ≠ []

/-- The players of a room, its points, its status and its rounds fit together. -/
structure WellFormed (duel : Duel) : Prop where
  /-- There are one or two players. -/
  size : 1 ≤ duel.room.players.length ∧ duel.room.players.length ≤ maxPlayers
  /-- Nobody is on the roster twice. -/
  nodup : duel.room.players.Nodup
  /-- Points are kept for the roster and for nobody else. -/
  scored : ∀ player, duel.room.scores.contains player ↔ player ∈ duel.room.players
  waiting : duel.room.status = .waiting → duel.Alone
  inProgress : duel.room.status = .inProgress → duel.Paired
  closed : duel.room.status = .closed → duel.Alone ∨ duel.Paired
  /-- Rounds are numbered from 1 in order. -/
  numbered : duel.rounds.map Round.number = List.range' 1 duel.rounds.length
  /-- The last round is the current one. -/
  current : duel.room.currentRound = if duel.rounds = [] then none else some duel.rounds.length
  /-- Every round but the last has ended. -/
  ended : ∀ round ∈ duel.rounds.dropLast, round.status = .ended
  /-- Every round is played in this room. -/
  owned : ∀ round ∈ duel.rounds, round.room = duel.id
  /-- A round is played by the two players of the roster and by nobody else. -/
  standings : ∀ round ∈ duel.rounds, duel.room.players.length = maxPlayers ∧
    ∀ player, (round.standingOf? player).isSome ↔ player ∈ duel.room.players

/-! ### The current round is the last one -/

theorem number_of_numbered {earlier : List Round} {round : Round}
    (h : (earlier ++ [round]).map Round.number = List.range' 1 (earlier.length + 1)) :
    round.number = earlier.length + 1 ∧ ∀ r ∈ earlier, r.number ≠ round.number := by
  rw [List.map_append, List.range'_concat] at h
  have hlength : (earlier.map Round.number).length = (List.range' 1 earlier.length).length := by
    simp
  obtain ⟨hearlier, hround⟩ := List.append_inj h hlength
  have hnumber : round.number = earlier.length + 1 := by
    have := List.cons.inj hround
    omega
  refine ⟨hnumber, ?_⟩
  intro r hr heq
  have hmem : r.number ∈ List.range' 1 earlier.length := hearlier ▸ List.mem_map_of_mem hr
  rw [heq, hnumber, List.mem_range'_1] at hmem
  omega

theorem WellFormed.currentRound?_append {duel : Duel} (h : duel.WellFormed) {earlier : List Round}
    {last : Round} (hrounds : duel.rounds = earlier ++ [last]) :
    duel.currentRound? = some last := by
  have hnumbered := h.numbered
  rw [hrounds, List.length_append, List.length_singleton] at hnumbered
  obtain ⟨hnumber, hothers⟩ := number_of_numbered hnumbered
  have hcurrent : duel.room.currentRound = some last.number := by
    rw [h.current, hrounds, hnumber]
    simp
  have hnone : earlier.find? (fun r => r.number == last.number) = none := by
    simpa [List.find?_eq_none] using hothers
  simp [currentRound?, hcurrent, round?, hrounds, List.find?_append, hnone]

/-- The current round stands at the end of the list of rounds. -/
theorem WellFormed.rounds_eq {duel : Duel} (h : duel.WellFormed) {round : Round}
    (hcurrent : duel.currentRound? = some round) :
    duel.rounds = duel.rounds.dropLast ++ [round] := by
  rcases List.eq_nil_or_concat duel.rounds with hnil | ⟨earlier, last, hrounds⟩
  · rw [currentRound?, h.current, if_pos hnil] at hcurrent
    cases hcurrent
  · rw [List.concat_eq_append] at hrounds
    have hlast := h.currentRound?_append hrounds
    rw [hcurrent] at hlast
    obtain rfl := Option.some.inj hlast
    rw [hrounds, List.dropLast_concat]

theorem WellFormed.mem_rounds {duel : Duel} (h : duel.WellFormed) {round : Round}
    (hcurrent : duel.currentRound? = some round) : round ∈ duel.rounds := by
  rw [h.rounds_eq hcurrent]
  simp

/-- A round that takes the place of the current one takes the last place. -/
theorem WellFormed.setRound_eq {duel : Duel} (h : duel.WellFormed) {last round : Round}
    (hcurrent : duel.currentRound? = some last) (hnumber : round.number = last.number) :
    (duel.setRound round).rounds = duel.rounds.dropLast ++ [round] := by
  have hrounds := h.rounds_eq hcurrent
  have hnumbered := h.numbered
  rw [hrounds, List.length_append, List.length_singleton] at hnumbered
  obtain ⟨-, hothers⟩ := number_of_numbered hnumbered
  generalize duel.rounds.dropLast = earlier at hrounds hothers
  rw [setRound, hrounds]
  show replaceRound round (earlier ++ [last]) = earlier ++ [round]
  clear hrounds hnumbered
  induction earlier with
  | nil => simp [replaceRound, hnumber]
  | cons r rs ih =>
      have hr : r.number ≠ round.number := by rw [hnumber]; exact hothers r (by simp)
      have hrest := ih fun r hr => hothers r (by simp [hr])
      simp [replaceRound, hr, hrest]

/-- The number that the next round gets. -/
theorem nextNumber_of_numbered {duel : Duel}
    (h : duel.rounds.map Round.number = List.range' 1 duel.rounds.length) :
    duel.maxRoundNumber?.elim 1 (· + 1) = duel.rounds.length + 1 := by
  rw [Duel.maxRoundNumber?, h]
  rcases Nat.eq_zero_or_pos duel.rounds.length with hzero | hpos
  · rw [hzero]
    rfl
  · have hmax : (List.range' 1 duel.rounds.length).max? = some duel.rounds.length := by
      rw [List.max?_eq_some_iff]
      refine ⟨?_, ?_⟩
      · rw [List.mem_range'_1]
        omega
      · intro n hn
        rw [List.mem_range'_1] at hn
        omega
    rw [hmax]
    rfl

/-! ### What is left of it before a round is opened -/

/-- Both players are in, and every round has ended: the next one can be opened. -/
structure Ready (duel : Duel) : Prop where
  players : duel.room.players.length = maxPlayers
  nodup : duel.room.players.Nodup
  scored : ∀ player, duel.room.scores.contains player ↔ player ∈ duel.room.players
  inProgress : duel.room.status = .inProgress
  numbered : duel.rounds.map Round.number = List.range' 1 duel.rounds.length
  ended : ∀ round ∈ duel.rounds, round.status = .ended
  owned : ∀ round ∈ duel.rounds, round.room = duel.id
  standings : ∀ round ∈ duel.rounds, ∀ player,
    (round.standingOf? player).isSome ↔ player ∈ duel.room.players

theorem WellFormed.ready {duel : Duel} (h : duel.WellFormed)
    (hstatus : duel.room.status = .inProgress)
    (hended : duel.currentRound?.all Round.isFinished) : duel.Ready where
  players := (h.inProgress hstatus).players
  nodup := h.nodup
  scored := h.scored
  inProgress := hstatus
  numbered := h.numbered
  ended := by
    intro round hround
    rcases List.eq_nil_or_concat duel.rounds with hnil | ⟨earlier, last, hrounds⟩
    · rw [hnil] at hround
      cases hround
    · rw [List.concat_eq_append] at hrounds
      rw [h.currentRound?_append hrounds] at hended
      have hearlier := h.ended
      rw [hrounds, List.dropLast_concat] at hearlier
      rw [hrounds] at hround
      rcases List.mem_append.1 hround with hround | hround
      · exact hearlier round hround
      · obtain rfl := List.mem_singleton.1 hround
        simpa [Round.isFinished] using hended
  owned := h.owned
  standings := fun round hround => (h.standings round hround).2

theorem standingOf?_newRound (referee : Referee) (duel : Duel) (target : String)
    (player : PlayerId) :
    (referee.newRound duel target).standingOf? player =
      if player ∈ duel.room.players then some .playing else none :=
  SortedMap.get?_ofList_const _ _ _

/-- A round that is opened when it may be completes the invariant. -/
theorem Ready.opened {duel : Duel} (h : duel.Ready) {referee : Referee} {round : Round}
    (hopen : referee.opening? duel = .ok round) : (duel.opened round).WellFormed := by
  obtain ⟨-, target, -, rfl⟩ := referee.opening?_eq_ok_iff.1 hopen
  have hnumber : (referee.newRound duel target).number = duel.rounds.length + 1 :=
    nextNumber_of_numbered h.numbered
  have hplayers := h.players
  have hpaired : (duel.opened (referee.newRound duel target)).Paired :=
    ⟨hplayers, by simp [Duel.opened]⟩
  refine
    { size := by simp [Duel.opened, hplayers, maxPlayers]
      nodup := h.nodup
      scored := h.scored
      waiting := fun hstatus => ?_
      inProgress := fun _ => hpaired
      closed := fun _ => .inr hpaired
      numbered := ?_
      current := ?_
      ended := ?_
      owned := ?_
      standings := ?_ }
  · have hinProgress : (duel.opened (referee.newRound duel target)).room.status = .inProgress :=
      h.inProgress
    rw [hinProgress] at hstatus
    cases hstatus
  · simp [Duel.opened, List.range'_concat, h.numbered, hnumber, Nat.add_comm]
  · simp [Duel.opened, hnumber]
  · simpa [Duel.opened] using h.ended
  · intro round hround
    rcases List.mem_append.1 hround with hround | hround
    · exact h.owned round hround
    · obtain rfl := List.mem_singleton.1 hround
      rfl
  · intro round hround
    refine ⟨hplayers, ?_⟩
    intro player
    rcases List.mem_append.1 hround with hround | hround
    · exact h.standings round hround player
    · obtain rfl := List.mem_singleton.1 hround
      rw [standingOf?_newRound]
      by_cases hmem : player ∈ duel.room.players <;> simp [hmem, Duel.opened]

/-- A round that a referee finds being played is the current one of a well-formed duel. -/
theorem WellFormed.active? {duel : Duel} (h : duel.WellFormed)
    (hstatus : duel.room.status = .inProgress) {referee : Referee} {active : Referee.Active}
    (hactive : referee.active? duel = .ok active) : active.duel.WellFormed := by
  rcases referee.active?_cases hactive with ⟨-, -, hsame⟩ | ⟨hended, hopen, hopened⟩
  · rw [hsame]
    exact h
  · rw [hopened]
    exact (h.ready hstatus hended).opened hopen

/-! ### What is left of it while a guess is put down -/

/-- Another version of the last round, and other points for the same players, do no harm. -/
theorem WellFormed.withLast {duel : Duel} (h : duel.WellFormed) {last round : Round}
    {scores : SortedMap PlayerId Int} (hcurrent : duel.currentRound? = some last)
    (hscores : ∀ player, scores.contains player ↔ player ∈ duel.room.players)
    (hnumber : round.number = last.number) (hroom : round.room = last.room)
    (hstandings : ∀ player, (round.standingOf? player).isSome ↔ (last.standingOf? player).isSome) :
    WellFormed ⟨{ duel.room with scores }, duel.rounds.dropLast ++ [round]⟩ := by
  have hmem := h.mem_rounds hcurrent
  obtain ⟨earlier, hrounds⟩ : ∃ earlier, duel.rounds = earlier ++ [last] :=
    ⟨_, h.rounds_eq hcurrent⟩
  have hearlier : duel.rounds.dropLast = earlier := by rw [hrounds, List.dropLast_concat]
  have hother : ∀ r ∈ earlier, r ∈ duel.rounds := by
    intro r hr
    rw [hrounds]
    exact List.mem_append_left _ hr
  have hnumbered := h.numbered
  have hended := h.ended
  rw [hrounds] at hnumbered hended
  rw [hearlier]
  have hpaired (hduel : duel.Paired) :
      Paired ⟨{ duel.room with scores }, earlier ++ [round]⟩ :=
    ⟨hduel.players, by simp⟩
  have hnotAlone (hduel : duel.Alone) : False := by
    rw [hduel.rounds] at hmem
    cases hmem
  refine
    { size := h.size
      nodup := h.nodup
      scored := hscores
      waiting := fun hstatus => (hnotAlone (h.waiting hstatus)).elim
      inProgress := fun hstatus => hpaired (h.inProgress hstatus)
      closed := fun hstatus => ?_
      numbered := ?_
      current := ?_
      ended := ?_
      owned := ?_
      standings := ?_ }
  · rcases h.closed hstatus with hduel | hduel
    · exact (hnotAlone hduel).elim
    · exact .inr (hpaired hduel)
  · simpa [hnumber] using hnumbered
  · have hnumber' := h.current
    rw [hrounds] at hnumber'
    simpa using hnumber'
  · simpa using hended
  · intro r hr
    rcases List.mem_append.1 hr with hr | hr
    · exact h.owned r (hother r hr)
    · rw [List.mem_singleton.1 hr, hroom]
      exact h.owned last hmem
  · intro r hr
    rcases List.mem_append.1 hr with hr | hr
    · exact h.standings r (hother r hr)
    · rw [List.mem_singleton.1 hr]
      refine ⟨(h.standings last hmem).1, ?_⟩
      intro player
      rw [hstandings]
      exact (h.standings last hmem).2 player

/-! ### Every change keeps it -/

/-- A player has a standing in a round before and after a guess of his, or neither. -/
theorem isSome_standingOf?_judge {referee : Referee} {room : Room} {round round' : Round}
    {player : PlayerId} {raw : String} {outcome : Outcome}
    (h : referee.judge room round player raw = .ok (round', outcome)) (other : PlayerId) :
    (round'.standingOf? other).isSome ↔ (round.standingOf? other).isSome := by
  obtain ⟨hbarred, -, -, rfl⟩ := referee.judge_eq_ok_iff.1 h
  obtain ⟨hstanding, -⟩ := Referee.barred?_eq_none_iff.1 hbarred
  rw [Referee.standingOf?_record]
  split
  · next hother =>
    rw [hother.2, hstanding]
    simp
  · exact Iff.rfl

theorem contains_scores_pay {room : Room} {round : Round}
    (hscored : ∀ player, room.scores.contains player ↔ player ∈ room.players)
    (hstandings : ∀ player, (round.standingOf? player).isSome ↔ player ∈ room.players)
    (player : PlayerId) :
    (Referee.pay room round).scores.contains player ↔ player ∈ room.players := by
  rw [SortedMap.contains, Referee.get?_scores_pay]
  split
  · next hwon =>
    rw [← hstandings, hwon]
    simp
  · exact hscored player

/-- Putting a guess down concerns the last round and, if that ends it, the points. -/
theorem WellFormed.settled_eq {duel : Duel} (h : duel.WellFormed) (referee : Referee)
    {last round : Round} (hcurrent : duel.currentRound? = some last)
    (hnumber : round.number = last.number) :
    referee.settled duel round =
      ⟨Referee.rewarded duel.room round,
        duel.rounds.dropLast ++ [referee.concluded duel.room round]⟩ := by
  rw [Referee.settled, Referee.rewarded, Referee.concluded]
  split
  · have hended : (referee.ended round).number = last.number := hnumber
    rw [← h.setRound_eq hcurrent hended]
  · rw [← h.setRound_eq hcurrent hnumber]
    rfl

theorem WellFormed.settled {duel : Duel} (h : duel.WellFormed) {referee : Referee}
    {round round' : Round} {player : PlayerId} {raw : String} {outcome : Outcome}
    (hcurrent : duel.currentRound? = some round)
    (hjudge : referee.judge duel.room round player raw = .ok (round', outcome)) :
    (referee.settled duel round').WellFormed := by
  have hnumber := Referee.number_of_judge hjudge
  have hstandings := isSome_standingOf?_judge hjudge
  have hroom : round'.room = round.room := by
    obtain ⟨-, -, -, rfl⟩ := referee.judge_eq_ok_iff.1 hjudge
    rfl
  rw [h.settled_eq referee hcurrent hnumber, Referee.rewarded, Referee.concluded]
  split
  · have hscores : ∀ p, (Referee.pay duel.room round').scores.contains p ↔
        p ∈ duel.room.players := contains_scores_pay h.scored fun p => by
      rw [hstandings p]
      exact (h.standings round (h.mem_rounds hcurrent)).2 p
    exact h.withLast hcurrent hscores hnumber hroom hstandings
  · exact h.withLast hcurrent h.scored hnumber hroom hstandings

/-- Who is let in is on the roster already, or finds one player waiting. -/
theorem WellFormed.admissible {duel : Duel} (h : duel.WellFormed) {player : PlayerId}
    (hadmissible : Referee.inadmissible? duel player = none) :
    duel.room.status ≠ .closed ∧
      (player ∈ duel.room.players ∨
        player ∉ duel.room.players ∧ duel.room.status = .waiting ∧ duel.Alone) := by
  rw [Referee.inadmissible?] at hadmissible
  split at hadmissible
  · cases hadmissible
  · next hopen =>
    refine ⟨hopen, ?_⟩
    split at hadmissible
    · cases hadmissible
    · next hplace =>
      by_cases hmember : player ∈ duel.room.players
      · exact .inl hmember
      · have hroom : duel.room.players.length < maxPlayers := by
          simpa [Room.isMember, hmember, Room.isFull] using hplace
        cases hstatus : duel.room.status with
        | waiting => exact .inr ⟨hmember, rfl, h.waiting hstatus⟩
        | inProgress =>
            have hfull := (h.inProgress hstatus).players
            omega
        | closed => exact (hopen hstatus).elim

/-- Letting a player in who is there already changes nothing. -/
theorem WellFormed.entered_eq {duel : Duel} (h : duel.WellFormed) {player : PlayerId}
    (hmember : player ∈ duel.room.players) : Referee.entered duel player = duel := by
  have hscore : duel.room.scores.insert player (duel.room.pointsOf player) = duel.room.scores := by
    apply SortedMap.ext_get?
    intro p
    by_cases hp : p = player
    · have hsome := (h.scored player).2 hmember
      rw [SortedMap.contains, Option.isSome_iff_exists] at hsome
      obtain ⟨points, hpoints⟩ := hsome
      simp [hp, Room.pointsOf, hpoints]
    · exact SortedMap.get?_insert_of_ne _ _ hp
  have hroom : duel.room.addPlayer player = duel.room := by
    simp [Room.addPlayer, Room.isMember, hmember, hscore]
  have hnotWaiting : ¬(duel.room.isFull ∧ duel.room.status = .waiting) := by
    rintro ⟨hfull, hstatus⟩
    have hone := (h.waiting hstatus).players
    simp [Room.isFull, hone, maxPlayers] at hfull
  rw [Referee.entered, Referee.admitted, hroom, if_neg hnotWaiting]

/-- A second player completes the roster, and the room is in progress. -/
theorem WellFormed.entered_new {duel : Duel} (h : duel.WellFormed) {player : PlayerId}
    (hnew : player ∉ duel.room.players) (hstatus : duel.room.status = .waiting) :
    Referee.entered duel player = { duel with room := { duel.room with
      status := .inProgress
      players := duel.room.players ++ [player]
      scores := duel.room.scores.insert player (duel.room.pointsOf player) } } := by
  have hadd : duel.room.addPlayer player = { duel.room with
      players := duel.room.players ++ [player]
      scores := duel.room.scores.insert player (duel.room.pointsOf player) } := by
    simp [Room.addPlayer, Room.isMember, hnew]
  have hfull : Room.isFull { duel.room with
      players := duel.room.players ++ [player]
      scores := duel.room.scores.insert player (duel.room.pointsOf player) } := by
    simp [Room.isFull, (h.waiting hstatus).players, maxPlayers]
  rw [Referee.entered, Referee.admitted, hadd, if_pos ⟨hfull, hstatus⟩]

/-- With the second player everything is there that a first round takes. -/
theorem WellFormed.ready_entered {duel : Duel} (h : duel.WellFormed) {player : PlayerId}
    (hnew : player ∉ duel.room.players) (hstatus : duel.room.status = .waiting) :
    (Referee.entered duel player).Ready := by
  have halone := h.waiting hstatus
  have hnone : ∀ round, round ∉ duel.rounds := by
    rw [halone.rounds]
    exact fun _ => List.not_mem_nil
  rw [h.entered_new hnew hstatus]
  refine
    { players := ?_
      nodup := ?_
      scored := fun p => ?_
      inProgress := rfl
      numbered := ?_
      ended := fun round hround => (hnone round hround).elim
      owned := fun round hround => (hnone round hround).elim
      standings := fun round hround => (hnone round hround).elim }
  · simp [halone.players, maxPlayers]
  · rw [List.nodup_append]
    refine ⟨h.nodup, by simp, fun a ha b hb heq => ?_⟩
    rw [List.mem_singleton.1 hb] at heq
    exact hnew (heq ▸ ha)
  · show (duel.room.scores.insert player _).contains p ↔ p ∈ duel.room.players ++ [player]
    by_cases hp : p = player
    · simp [hp, SortedMap.contains]
    · have hscored := h.scored p
      rw [SortedMap.contains] at hscored
      simp [hp, SortedMap.contains, SortedMap.get?_insert_of_ne _ _ hp, hscored]
  · show duel.rounds.map Round.number = _
    rw [halone.rounds]
    rfl

theorem wellFormed_createRoom (referee : Referee) (id : RoomId) (language : Language)
    (creator : PlayerId) : (referee.createRoom id language creator).1.WellFormed := by
  have hroom : (referee.createRoom id language creator).1 =
      ⟨⟨id, language, .waiting, [creator], SortedMap.empty.insert creator 0, none,
        referee.clock .creation⟩, []⟩ := rfl
  rw [hroom]
  refine
    { size := by simp [maxPlayers]
      nodup := by simp
      scored := fun p => ?_
      waiting := fun _ => ⟨rfl, rfl, rfl⟩
      inProgress := fun hstatus => by cases hstatus
      closed := fun hstatus => by cases hstatus
      numbered := rfl
      current := rfl
      ended := fun round hround => by cases hround
      owned := fun round hround => by cases hround
      standings := fun round hround => by cases hround }
  by_cases hp : p = creator
  · simp [hp, SortedMap.contains]
  · simp [hp, SortedMap.contains, SortedMap.get?_insert_of_ne _ _ hp]

theorem mem_players_createRoom (referee : Referee) (id : RoomId) (language : Language)
    (creator : PlayerId) : creator ∈ (referee.createRoom id language creator).1.room.players := by
  simp [Referee.createRoom, Room.new, Room.addPlayer, Room.isMember]

theorem WellFormed.alone_or_paired {duel : Duel} (h : duel.WellFormed) :
    duel.Alone ∨ duel.Paired := by
  cases hstatus : duel.room.status with
  | waiting => exact .inl (h.waiting hstatus)
  | inProgress => exact .inr (h.inProgress hstatus)
  | closed => exact h.closed hstatus

theorem WellFormed.closed_room {duel : Duel} (h : duel.WellFormed) :
    (Referee.closed duel).WellFormed where
  size := h.size
  nodup := h.nodup
  scored := h.scored
  waiting := fun hstatus => by cases hstatus
  inProgress := fun hstatus => by cases hstatus
  closed := fun _ => h.alone_or_paired.imp (fun ha => ⟨ha.players, ha.rounds, ha.current⟩)
    fun hp => ⟨hp.players, hp.rounds⟩
  numbered := h.numbered
  current := h.current
  ended := h.ended
  owned := h.owned
  standings := h.standings

/-- A player who may play finds the room in progress. -/
theorem playable_iff {duel : Duel} {player : PlayerId} :
    Referee.unplayable? duel player = none ↔
      player ∈ duel.room.players ∧ duel.room.status = .inProgress := by
  rw [Referee.unplayable?]
  by_cases hmember : player ∈ duel.room.players <;> cases duel.room.status <;>
    simp [Room.isMember, hmember]

theorem WellFormed.effect {duel duel' : Duel} (h : duel.WellFormed) {referee : Referee}
    {change : Change} {events : List Event} (heffect : referee.Effect duel change duel' events) :
    duel'.WellFormed := by
  cases heffect with
  | enter hadmissible hrunning =>
      rcases (h.admissible hadmissible).2 with hmember | ⟨hnew, hstatus, halone⟩
      · rw [h.entered_eq hmember]
        exact h
      · -- A second player would have found the room full and without a round.
        have hplayers := (h.ready_entered hnew hstatus).players
        have hfull : (Referee.admitted duel.room _).isFull :=
          decide_eq_true (Nat.le_of_eq hplayers.symm)
        exact (hrunning ⟨hfull, halone.rounds⟩).elim
  | pair hadmissible hfull hfirst hopen =>
      obtain ⟨hopenRoom, hmember | ⟨hnew, hstatus, -⟩⟩ := h.admissible hadmissible
      · -- A room whose first round is still to come has one player.
        rw [h.entered_eq hmember] at hopen
        obtain ⟨hplayers, -⟩ := referee.opening?_eq_ok_iff.1 hopen
        cases hstatus : duel.room.status with
        | waiting =>
            rw [(h.waiting hstatus).players] at hplayers
            cases hplayers
        | inProgress => exact ((h.inProgress hstatus).rounds hfirst).elim
        | closed => exact (hopenRoom hstatus).elim
      · exact (h.ready_entered hnew hstatus).opened hopen
  | guess hplayable hactive hjudge =>
      have hwf := h.active? (playable_iff.1 hplayable).2 hactive
      exact hwf.settled (referee.currentRound?_active? hactive) hjudge
  | start hplayable hactive => exact h.active? (playable_iff.1 hplayable).2 hactive
  | close => exact h.closed_room

theorem WellFormed.after {duel : Duel} (h : duel.WellFormed) (ply : Ply) :
    (ply.after duel).WellFormed := by
  rcases ply.after_cases duel with hsame | ⟨events, heffect⟩
  · rw [hsame]
    exact h
  · exact h.effect heffect

/-- Every duel that can come about is well formed. -/
theorem Reachable.wellFormed {duel : Duel} (h : duel.Reachable) : duel.WellFormed := by
  induction h with
  | created referee id language creator => exact wellFormed_createRoom referee id language creator
  | played ply guesses reachable ih => exact ih.after ply

theorem Arises.wellFormed {duel : Duel} (h : duel.Arises) : duel.WellFormed :=
  h.induction wellFormed_createRoom fun _ ply hduel => hduel.after ply

theorem Reachable.course {duel : Duel} (h : duel.Reachable) {plies : List Ply}
    (hguesses : ∀ ply ∈ plies, 1 ≤ ply.referee.rules.maxAttempts) :
    (duel.course plies).Reachable := by
  induction plies generalizing duel with
  | nil => exact h
  | cons ply plies ih =>
      exact ih (h.played ply (hguesses ply (by simp))) fun p hp => hguesses p (by simp [hp])

/-! ### The invariant in full -/

/-- In every duel that can come about there are one or two players, each once, and points
are kept for exactly them. A waiting room has one player, no round and no current round; a
room in progress has two players and a round; a closed room is like one of these. The
rounds are numbered 1, 2, … in order, the last one is the current one and the others have
ended; each belongs to the room and is played by exactly the two players. -/
theorem structure_of_reachable {duel : Duel} (h : duel.Reachable) :
    (duel.room.players.length = 1 ∨ duel.room.players.length = 2) ∧
    duel.room.players.Nodup ∧
    (∀ player, duel.room.scores.contains player ↔ player ∈ duel.room.players) ∧
    (duel.room.status = .waiting → duel.Alone) ∧
    (duel.room.status = .inProgress → duel.Paired) ∧
    (duel.room.status = .closed → duel.Alone ∨ duel.Paired) ∧
    duel.rounds.map Round.number = List.range' 1 duel.rounds.length ∧
    (∀ n, duel.room.currentRound = some n ↔ n = duel.rounds.length ∧ 1 ≤ n) ∧
    (∀ round ∈ duel.rounds.dropLast, round.status = .ended) ∧
    (∀ round ∈ duel.rounds, round.room = duel.id) ∧
    ∀ round ∈ duel.rounds, duel.room.players.length = 2 ∧
      ∀ player, round.standings.contains player ↔ player ∈ duel.room.players := by
  have hwf := h.wellFormed
  obtain ⟨hone, htwo⟩ := hwf.size
  have hsize : duel.room.players.length = 1 ∨ duel.room.players.length = 2 := by
    rw [maxPlayers] at htwo
    omega
  have hcurrent : ∀ n, duel.room.currentRound = some n ↔ n = duel.rounds.length ∧ 1 ≤ n := by
    intro n
    rw [hwf.current]
    split
    · next hnil =>
      simp only [hnil, List.length_nil, reduceCtorEq, false_iff]
      omega
    · next hrounds =>
      have hpos := List.length_pos_iff.2 hrounds
      simp only [Option.some.injEq]
      omega
  exact ⟨hsize, hwf.nodup, hwf.scored, hwf.waiting, hwf.inProgress, hwf.closed, hwf.numbered,
    hcurrent, hwf.ended, hwf.owned, hwf.standings⟩

end Duel

/-! ### A course of play -/

namespace Sample

/-- Who creates the room. -/
def alice : PlayerId := ⟨1⟩

/-- Who comes in second. -/
def bob : PlayerId := ⟨2⟩

/-- A referee under whom there is one word to find, in two attempts. -/
def referee : Referee where
  rules := { maxAttempts := 2 }
  dictionary :=
    { allowed := fun _ => .ok (.ofWords ["BUMPY", "CRANE", "MOIST"])
      answers := fun _ => .ok (.ofWords ["CRANE"]) }
  clock := fun _ => ⟨0, 0⟩
  draw := 0

/-- A room in which some changes are attempted. -/
def after (changes : List Change) : Duel :=
  (referee.createRoom ⟨7⟩ .english alice).1.course (changes.map (Ply.mk referee))

theorem arises_after (changes : List Change) : (after changes).Arises :=
  ⟨referee, ⟨7⟩, .english, alice, changes.map (Ply.mk referee), rfl⟩

theorem reachable_after (changes : List Change) : (after changes).Reachable := by
  refine (Duel.Reachable.created referee ⟨7⟩ .english alice).course ?_
  intro ply hply
  obtain ⟨change, -, rfl⟩ := List.mem_map.1 hply
  exact Nat.le_succ 1

/-- A first round with a winner and a loser, and a second one in which the room is
closed. -/
def twoRounds : List Change :=
  [.join bob, .guess alice "crane", .guess bob "moist", .guess bob "bumpy", .startRound bob, .close]

end Sample

theorem Duel.structure_of_two_rounds :
    (Sample.after Sample.twoRounds).Reachable ∧
      (Sample.after Sample.twoRounds).room.status = .closed ∧
      ((Sample.after Sample.twoRounds).Alone ∨ (Sample.after Sample.twoRounds).Paired) ∧
      (Sample.after Sample.twoRounds).rounds.map Round.number = [1, 2] ∧
      ∀ round ∈ (Sample.after Sample.twoRounds).rounds.dropLast, round.status = .ended := by
  have hreachable := Sample.reachable_after Sample.twoRounds
  obtain ⟨-, -, -, -, -, hclosed, hnumbers, -, hended, -⟩ := structure_of_reachable hreachable
  have hstatus : (Sample.after Sample.twoRounds).room.status = .closed := by decide +kernel
  exact ⟨hreachable, hstatus, hclosed hstatus, hnumbers.trans (by decide +kernel), hended⟩

end WordDuel
