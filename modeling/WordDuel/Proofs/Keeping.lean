import WordDuel.Proofs.History
import WordDuel.Proofs.Writing
import WordDuel.Service.Session
/-!
# WordDuel.Proofs.Keeping

**What a service keeps.** Whatever a service is asked for, every duel in its memory is well
formed and counts its guesses within 32 bits (`Duel.Kept`), so that it can be stored in tables
as long as its rounds can be numbered (`Duel.Kept.storable`), and comes back as it is as long as
the guesses of each round can be too (`Duel.Kept.numerable`). A call stores a new room, or the
duel that an attempt has led to, or nothing (`stores_answer`); rooms stay, and no round or guess
of theirs goes away (`Stores.outlasts`).
-/

namespace WordDuel

/-! ### What a service keeps can be stored -/

/-- The rounds of a duel can be numbered in a column, and so can the guesses of each round. -/
def Duel.Small (duel : Duel) : Prop :=
  duel.rounds.length < 2147483648 ∧ ∀ round ∈ duel.rounds, round.guesses.length ≤ 2147483648

instance (duel : Duel) : Decidable duel.Small := inferInstanceAs (Decidable (_ ∧ _))

/-- The guesses of a round are counted within 32 bits, and no player has two of one number. -/
structure Round.Counted (round : Round) : Prop where
  limit : round.maxAttempts < 4294967296
  within : ∀ player, round.attemptsUsed player ≤ round.maxAttempts
  earlier : ∀ guess ∈ round.guesses, guess.attempt ≤ round.attemptsUsed guess.player
  distinct : (round.guesses.map fun guess => (guess.player, guess.attempt)).Nodup

/-- What holds of a duel that a service keeps. -/
structure Duel.Kept (duel : Duel) : Prop where
  wellFormed : duel.WellFormed
  counted : ∀ round ∈ duel.rounds, round.Counted

theorem counted_newRound {referee : Referee} (hrange : referee.rules.maxAttempts < 4294967296)
    (duel : Duel) (target : String) : (referee.newRound duel target).Counted where
  limit := hrange
  within _ := Nat.zero_le _
  earlier _ hguess := by cases hguess
  distinct := List.nodup_nil

namespace Round.Counted

variable {round : Round}

/-- A guess is put down under the first number that its player has not used yet. -/
theorem record (h : round.Counted) {guess : Guess} {standing : Standing}
    (hattempt : guess.attempt = round.attemptsUsed guess.player + 1)
    (hleft : round.attemptsUsed guess.player < round.maxAttempts) :
    (Referee.record round guess standing).Counted := by
  have hused (player : PlayerId) : (Referee.record round guess standing).attemptsUsed player =
      if guess.player = player then round.attemptsUsed player + 1
      else round.attemptsUsed player := by
    rw [attemptsUsed, guessesBy_record]
    split <;> simp [attemptsUsed]
  refine ⟨h.limit, fun player => ?_, fun g hg => ?_, ?_⟩
  · show _ ≤ round.maxAttempts
    rw [hused]
    split
    · next hplayer => rw [← hplayer]; exact hleft
    · exact h.within player
  · rw [hused]
    rcases List.mem_append.1 hg with hg | hg
    · have hearlier := h.earlier g hg
      split <;> omega
    · rw [List.mem_singleton.1 hg, if_pos rfl]
      exact Nat.le_of_eq hattempt
  · show ((round.guesses ++ [guess]).map _).Nodup
    rw [List.map_append, List.nodup_append]
    refine ⟨h.distinct, by simp, fun key hkey key' hkey' heq => ?_⟩
    obtain ⟨g, hg, rfl⟩ := List.mem_map.1 hkey
    rw [List.map_singleton, List.mem_singleton] at hkey'
    obtain ⟨hplayer, hsame⟩ := Prod.mk.inj (heq.trans hkey')
    have hearlier := h.earlier g hg
    rw [hplayer, hsame, hattempt] at hearlier
    omega

theorem judged (h : round.Counted) {referee : Referee} {room : Room} {round' : Round}
    {player : PlayerId} {raw : String} {outcome : Outcome}
    (hjudge : referee.judge room round player raw = .ok (round', outcome)) :
    (referee.concluded room round').Counted := by
  obtain ⟨hbarred, -, houtcome, rfl⟩ := referee.judge_eq_ok_iff.1 hjudge
  obtain ⟨-, hleft⟩ := Referee.barred?_eq_none_iff.1 hbarred
  have hrecorded : (Referee.record round ⟨player, GuessRules.normalize raw, outcome.attempt,
      outcome.letters, referee.clock .guess⟩ outcome.standing).Counted := by
    refine h.record ?_ hleft
    rw [houtcome]
  rw [Duel.concluded_eq]
  exact ⟨hrecorded.limit, hrecorded.within, hrecorded.earlier, hrecorded.distinct⟩

/-- What is counted within 32 bits can be stored. -/
theorem storable (h : round.Counted) {room : RoomId} (hroom : round.room = room)
    (hnumber : round.number < 2147483648) : round.Storable room where
  owned := hroom
  number := hnumber
  limit := h.limit
  attempts guess hguess :=
    Nat.lt_of_le_of_lt (Nat.le_trans (h.earlier guess hguess) (h.within _)) h.limit
  distinct := h.distinct

end Round.Counted

namespace Duel

theorem kept_createRoom (referee : Referee) (id : RoomId) (language : Language)
    (creator : PlayerId) : (referee.createRoom id language creator).1.Kept :=
  ⟨wellFormed_createRoom referee id language creator, fun _ hround => by cases hround⟩

namespace Kept

variable {duel : Duel}

theorem played (h : duel.Kept) {ply : Ply} (hrange : ply.referee.rules.maxAttempts < 4294967296)
    {duel' : Duel} {events : List Event} (hplay : ply.play? duel = .ok (duel', events)) :
    duel'.Kept := by
  have heffect := Ply.effect_of_play? hplay
  refine ⟨h.wellFormed.effect heffect, ?_⟩
  exact (h.wellFormed.rounds_effect heffect).forall_round (counted_newRound hrange)
    (fun _ _ _ _ _ _ hcounted => hcounted.judged) h.counted

theorem storable (h : duel.Kept) (hrounds : duel.rounds.length < 2147483648) : duel.Storable where
  nodup := h.wellFormed.nodup
  scored := h.wellFormed.scored
  current number hnumber := by
    have hcurrent := h.wellFormed.current
    rw [Option.mem_def.1 hnumber] at hcurrent
    split at hcurrent
    · cases hcurrent
    · rw [Option.some.inj hcurrent]
      omega
  ordered := by
    refine List.pairwise_map.1 ?_
    rw [h.wellFormed.numbered]
    exact List.pairwise_lt_range' 1
  rounds round hround := by
    have hmem : round.number ∈ duel.rounds.map Round.number := List.mem_map_of_mem hround
    rw [h.wellFormed.numbered, List.mem_range'_1] at hmem
    exact (h.counted round hround).storable (h.wellFormed.owned round hround) (by omega)

/-- The places of two players and of few guesses are kept by their columns. -/
theorem numerable (h : duel.Kept) (hsmall : duel.Small) : duel.Numerable :=
  ⟨Nat.le_trans h.wellFormed.size.2 (by decide), hsmall.2⟩

end Kept

theorem Grows.continues {duel duel' : Duel} {points rounds guesses : Nat}
    (h : duel.Grows points rounds guesses duel') : duel'.Continues duel where
  id := h.id
  rounds round hround := by
    obtain ⟨i, hi⟩ := List.mem_iff_getElem?.1 hround
    obtain ⟨round', hround', hgrows⟩ := h.rounds i round hi
    exact ⟨round', List.mem_of_getElem? hround', hgrows.room, hgrows.number, hgrows.target,
      hgrows.maxAttempts, hgrows.startedAt, hgrows.guesses⟩

theorem Grows.length_rounds_le {duel duel' : Duel} {points rounds guesses : Nat}
    (h : duel.Grows points rounds guesses duel') : duel.rounds.length ≤ duel'.rounds.length := by
  refine Nat.le_of_not_lt fun hlt => ?_
  obtain ⟨round', hround', -⟩ := h.rounds _ _ (List.getElem?_eq_getElem hlt)
  rw [List.getElem?_eq_none (Nat.le_refl _)] at hround'
  cases hround'

/-- What grows has been small if it is small in the end. -/
theorem Grows.small {duel duel' : Duel} {points rounds guesses : Nat}
    (h : duel.Grows points rounds guesses duel') (hsmall : duel'.Small) : duel.Small := by
  refine ⟨Nat.lt_of_le_of_lt h.length_rounds_le hsmall.1, fun round hround => ?_⟩
  obtain ⟨round', hround', hcontinues⟩ := h.continues.rounds round hround
  exact Nat.le_trans hcontinues.guesses.length_le (hsmall.2 round' hround')

end Duel

/-! ### Duels in memory -/

namespace Store.Memory

/-- Every duel is kept under the id of its room. -/
def Kept (rooms : Store.Memory) : Prop :=
  ∀ room duel, rooms.get? room = some duel → duel.id = room ∧ duel.Kept

/-- Every duel is small. -/
def Small (rooms : Store.Memory) : Prop :=
  ∀ room duel, rooms.get? room = some duel → duel.Small

theorem get?_insert_eq_some {rooms : Store.Memory} {room other : RoomId} {duel duel' : Duel}
    (h : (rooms.insert room duel).get? other = some duel') :
    (other = room ∧ duel' = duel) ∨ rooms.get? other = some duel' := by
  by_cases hroom : other = room
  · rw [hroom, SortedMap.get?_insert_self] at h
    exact .inl ⟨hroom, (Option.some.inj h).symm⟩
  · rw [SortedMap.get?_insert_of_ne _ _ hroom] at h
    exact .inr h

theorem Kept.insert {rooms : Store.Memory} (h : rooms.Kept) {room : RoomId} {duel : Duel}
    (hid : duel.id = room) (hduel : duel.Kept) : Kept (SortedMap.insert rooms room duel) := by
  intro other duel' hduel'
  rcases get?_insert_eq_some hduel' with ⟨rfl, rfl⟩ | hother
  · exact ⟨hid, hduel⟩
  · exact h other duel' hother

theorem Small.insert {rooms : Store.Memory} (h : rooms.Small) {room : RoomId} {duel : Duel}
    (hduel : duel.Small) : Small (SortedMap.insert rooms room duel) := by
  intro other duel' hduel'
  rcases get?_insert_eq_some hduel' with ⟨-, rfl⟩ | hother
  · exact hduel
  · exact h other duel' hother

end Store.Memory

/-! ### What an attempt comes to -/

namespace Service

variable {σ : Type} {service : Service σ} {w : World σ} {room : RoomId} {ply : Ply}

/-- What comes of an attempt on what a unit of work has found. -/
def attemptOn (service : Service σ) (w : World σ) (room : RoomId) (ply : Ply) (u : UnitOfWork) :
    Option Duel → World σ × Result Duel
  | none => (w, .error (.refused (.roomNotFound room)))
  | some duel =>
    match ply.play? duel with
    | .error failure => (w, .error failure)
    | .ok (duel', events) =>
      match service.store.commit w.stored u duel' with
      | .error failure => (w, .error failure)
      | .ok stored => (⟨stored, w.sink.publishAll room events⟩, .ok duel')

theorem run_of_load {u u' : UnitOfWork} {duel? : Option Duel}
    (hopen : service.store.openUnit w.stored room service.exclusive = .ok u)
    (hload : service.store.loadIn w.stored u = .ok (duel?, u')) :
    (service.mutation room (ply.change.move ply.referee)).run w =
      service.attemptOn w room ply u' duel? := by
  simp only [Mutation.run, Mutation.load, mutation, hopen, hload]
  cases duel? with
  | none => rfl
  | some duel =>
      simp only [Mutation.judge, Mutation.commit, attemptOn, Ply.play?]
      cases (ply.change.move ply.referee).commit? duel with
      | error failure => rfl
      | ok made =>
          cases hstored : service.store.commit w.stored u' made.2.1 <;>
            simp [hstored, Except.map, Mutation.announce]

end Service

/-- What comes of a change in memory. -/
theorem run_inMemory (exclusive : Bool) (v : World Store.Memory) (room : RoomId) (ply : Ply) :
    ((Service.inMemory exclusive).mutation room (ply.change.move ply.referee)).run v =
      (Service.inMemory exclusive).attemptOn v room ply
        ⟨room, exclusive, some (v.stored.get? room)⟩ (v.stored.get? room) :=
  Service.run_of_load rfl rfl

/-! ### What an attempt fails with -/

/-- A refusal, or what a dictionary fails with. -/
def Dictionary.Explains (dictionary : Dictionary) (failure : Failure) : Prop :=
  (∃ refusal, failure = .refused refusal) ∨ ∃ language, dictionary.Reports language failure

theorem explains_of_opening? {referee : Referee} {duel : Duel} {failure : Failure}
    (h : referee.opening? duel = .error failure) : referee.dictionary.Explains failure := by
  rcases Duel.opening?_eq_error h with hnotReady | hempty | hreports
  · exact .inl ⟨_, hnotReady⟩
  · exact .inl ⟨_, hempty⟩
  · exact .inr ⟨_, hreports⟩

theorem explains_of_judge {referee : Referee} {room : Room} {round : Round} {player : PlayerId}
    {raw : String} {failure : Failure}
    (h : referee.judge room round player raw = .error failure) :
    referee.dictionary.Explains failure := by
  rcases referee.judge_eq_error h with ⟨refusal, -, hbarred⟩ | hcheck
  · exact .inl ⟨refusal, hbarred⟩
  · rcases GuessRules.check_eq_error hcheck with ⟨_, _, hlength⟩ | hchars | ⟨_, hword⟩ | hallowed
    · exact .inl ⟨_, hlength⟩
    · exact .inl ⟨_, hchars⟩
    · exact .inl ⟨_, hword⟩
    · exact .inr ⟨_, .inl hallowed⟩

theorem map_eq_error {α β ε : Type} {r : Except ε α} {f : α → β} {e : ε} :
    r.map f = .error e ↔ r = .error e := by
  cases r <;> simp [Except.map]

/-- An attempt does not fail for a fault of the duel. -/
theorem Ply.explains_of_play? {ply : Ply} {duel : Duel} {failure : Failure}
    (h : ply.play? duel = .error failure) : ply.referee.dictionary.Explains failure := by
  obtain ⟨referee, change⟩ := ply
  have hcommit : (change.move referee).commit? duel = .error failure := map_eq_error.1 h
  cases change with
  | join player =>
      rw [Change.move, Referee.commit?_join] at hcommit
      split at hcommit
      · next refusal _ => exact .inl ⟨refusal, (Except.error.inj hcommit).symm⟩
      · split at hcommit
        · exact explains_of_opening? (map_eq_error.1 hcommit)
        · cases hcommit
  | guess player raw =>
      rw [Change.move, Move.commit?_bind_pure] at hcommit
      rcases referee.submitGuess_eq_error (map_eq_error.1 hcommit) with
        ⟨refusal, -, hrefused⟩ | hopening | ⟨active, -, hjudge⟩
      · exact .inl ⟨refusal, hrefused⟩
      · exact explains_of_opening? hopening
      · exact explains_of_judge hjudge
  | startRound player =>
      rw [Change.move, Referee.commit?_startNewRound] at hcommit
      split at hcommit
      · next refusal _ => exact .inl ⟨refusal, (Except.error.inj hcommit).symm⟩
      · have hactive := map_eq_error.1 hcommit
        exact explains_of_opening? (referee.opening?_of_active? hactive)
  | close =>
      rw [Change.move, Move.commit?_bind_pure, Referee.commit?_close] at hcommit
      cases hcommit

/-! ### What comes of a request in memory -/

theorem create_inMemory (exclusive : Bool) (v : World Store.Memory) (referee : Referee)
    (room : RoomId) (code : String) (player : PlayerId) :
    (Service.inMemory exclusive).create referee v room code player =
        (v, .error (.refused .invalidLanguage)) ∨
      ∃ language, (Service.inMemory exclusive).create referee v room code player =
        (⟨v.stored.insert room (referee.createRoom room language player).1,
          v.sink.publishAll room (referee.createRoom room language player).2⟩,
          .ok (referee.createRoom room language player).1) := by
  simp only [Service.create, Service.establish]
  cases Language.ofCode? code with
  | none => exact .inl rfl
  | some language => exact .inr ⟨language, rfl⟩

theorem change_inMemory (exclusive : Bool) (v : World Store.Memory) (grant : Grant)
    (room : RoomId) (ply : Ply) :
    (∃ failure, ((∃ cause, failure = .lock cause) ∨ ply.referee.dictionary.Explains failure) ∧
      (Service.inMemory exclusive).change v grant room (ply.change.move ply.referee) =
        (v, .error failure)) ∨
      ∃ duel duel' events, v.stored.get? room = some duel ∧ ply.play? duel = .ok (duel', events) ∧
        (Service.inMemory exclusive).change v grant room (ply.change.move ply.referee) =
          (⟨v.stored.insert room duel', v.sink.publishAll room events⟩, .ok duel') := by
  cases grant with
  | late => exact .inl ⟨_, .inr (.inl ⟨_, rfl⟩), rfl⟩
  | failed cause => exact .inl ⟨_, .inl ⟨cause, rfl⟩, rfl⟩
  | granted =>
      have hrun := run_inMemory exclusive v room ply
      simp only [Service.change, hrun]
      cases hduel : v.stored.get? room with
      | none => exact .inl ⟨_, .inr (.inl ⟨_, rfl⟩), rfl⟩
      | some duel =>
          simp only [Service.attemptOn]
          cases hplay : ply.play? duel with
          | error failure => exact .inl ⟨failure, .inr (Ply.explains_of_play? hplay), rfl⟩
          | ok played => exact .inr ⟨duel, played.1, played.2, rfl, hplay, rfl⟩

/-! ### What a call does to the duels in memory -/

/-- What can become of the duels in memory when a call is answered. -/
inductive Stores (ask : Ask) (rooms : Store.Memory) : Store.Memory → Prop
  | nothing : Stores ask rooms rooms
  /-- A new room is stored. -/
  | created {room : RoomId} (referee : Referee) (language : Language) (creator : PlayerId)
    (asked : ask.created? = some room) :
    Stores ask rooms (rooms.insert room (referee.createRoom room language creator).1)
  /-- An attempt has succeeded. -/
  | changed {ply : Ply} {room : RoomId} {duel duel' : Duel} {events : List Event}
    (inRange : ask.InRange → ply.referee.rules.maxAttempts < 4294967296)
    (found : rooms.get? room = some duel) (played : ply.play? duel = .ok (duel', events)) :
    Stores ask rooms (rooms.insert room duel')

/-- Every duel is still there, with its rounds and their guesses. -/
def Outlasts (rooms rooms' : Store.Memory) : Prop :=
  ∀ room duel, rooms.get? room = some duel →
    ∃ duel' points rounds guesses,
      rooms'.get? room = some duel' ∧ duel.Grows points rounds guesses duel'

theorem Outlasts.refl (rooms : Store.Memory) : Outlasts rooms rooms :=
  fun _ duel hduel => ⟨duel, 0, 0, 0, hduel, .refl duel⟩

theorem Outlasts.trans {a b c : Store.Memory} (hab : Outlasts a b) (hbc : Outlasts b c) :
    Outlasts a c := by
  intro room duel hduel
  obtain ⟨duel', _, _, _, hduel', hgrows⟩ := hab room duel hduel
  obtain ⟨duel'', _, _, _, hduel'', hgrows'⟩ := hbc room duel' hduel'
  exact ⟨duel'', _, _, _, hduel'', hgrows.trans hgrows'⟩

theorem Outlasts.small {rooms rooms' : Store.Memory} (h : Outlasts rooms rooms')
    (hsmall : rooms'.Small) : rooms.Small := by
  intro room duel hduel
  obtain ⟨duel', _, _, _, hduel', hgrows⟩ := h room duel hduel
  exact hgrows.small (hsmall room duel' hduel')

theorem stores_answer (exclusive : Bool) (v : World Store.Memory) (ask : Ask) :
    Stores ask v.stored ((Service.inMemory exclusive).answer v ask).1.stored := by
  cases ask with
  | request referee grant request =>
      cases request with
      | create room code player =>
          rw [Service.answer_create]
          rcases create_inMemory exclusive v referee room code player with
            hcreate | ⟨language, hcreate⟩
          · rw [hcreate]
            exact .nothing
          · rw [hcreate]
            exact .created referee language player rfl
      | get room player => exact .nothing
      | change room change =>
          rw [Service.answer_change]
          rcases change_inMemory exclusive v grant room ⟨referee, change⟩ with
            ⟨failure, -, hchange⟩ | ⟨duel, duel', events, hduel, hplay, hchange⟩
          · rw [hchange]
            exact .nothing
          · rw [hchange]
            exact .changed id hduel hplay
  | load room => exact .nothing
  | loadRound room number => exact .nothing

namespace Stores

variable {ask : Ask} {rooms rooms' : Store.Memory}

theorem kept (h : Stores ask rooms rooms') (hkept : rooms.Kept) (hrange : ask.InRange) :
    rooms'.Kept := by
  cases h with
  | nothing => exact hkept
  | created referee language creator asked =>
      exact hkept.insert rfl (Duel.kept_createRoom _ _ _ _)
  | changed inRange found played =>
      obtain ⟨hid, hduel⟩ := hkept _ _ found
      have hgrows := hduel.wellFormed.grows_effect (Ply.effect_of_play? played)
      exact hkept.insert (hgrows.id.trans hid) (hduel.played (inRange hrange) played)

theorem outlasts (h : Stores ask rooms rooms') (hkept : rooms.Kept)
    (hnew : ∀ room ∈ ask.created?, rooms.get? room = none) : Outlasts rooms rooms' := by
  cases h with
  | nothing => exact .refl rooms
  | @created room referee language creator asked =>
      intro other duel hduel
      have hother : other ≠ room := by
        rintro rfl
        rw [hnew other asked] at hduel
        cases hduel
      have hkept := (SortedMap.get?_insert_of_ne rooms
        (referee.createRoom room language creator).1 hother).trans hduel
      exact ⟨duel, 0, 0, 0, hkept, .refl duel⟩
  | @changed ply room found' duel' events inRange found played =>
      intro other duel hduel
      by_cases hother : other = room
      · subst hother
        obtain rfl := Option.some.inj (found.symm.trans hduel)
        have hgrows := (hkept other found' found).2.wellFormed.grows_effect
          (Ply.effect_of_play? played)
        exact ⟨duel', _, _, _, SortedMap.get?_insert_self _ _ _, hgrows⟩
      · have hkept := (SortedMap.get?_insert_of_ne rooms duel' hother).trans hduel
        exact ⟨duel, 0, 0, 0, hkept, .refl duel⟩

/-- A room comes to be stored only if the call creates it. -/
theorem get?_eq_none (h : Stores ask rooms rooms') {room : RoomId}
    (hroom : rooms.get? room = none) (hask : room ∉ ask.created?) : rooms'.get? room = none := by
  cases h with
  | nothing => exact hroom
  | @created created referee language creator asked =>
      have hne : room ≠ created := fun heq => hask (heq ▸ asked)
      rw [SortedMap.get?_insert_of_ne _ _ hne, hroom]
  | @changed ply changed duel duel' events inRange found played =>
      have hne : room ≠ changed := by
        rintro rfl
        rw [hroom] at found
        cases found
      rw [SortedMap.get?_insert_of_ne _ _ hne, hroom]

end Stores

/-! ### What a call in memory is answered with -/

/-- A call is judged with a dictionary that fails with this. -/
def Ask.Reports (failure : Failure) : Ask → Prop
  | .request referee _ _ => ∃ language, referee.dictionary.Reports language failure
  | .load _ | .loadRound _ _ => False

theorem failure?_reply {α : Type} {r : Result α} {f : α → Reply} {failure : Failure} :
    (Told.reply (r.map f)).failure? = some failure ↔ r = .error failure := by
  cases r <;> simp [Told.failure?, Except.map]

/-- Nothing goes wrong with the storage in memory. -/
theorem reports_of_storage {exclusive : Bool} {v : World Store.Memory} {ask : Ask}
    {cause : StorageCause}
    (h : ((Service.inMemory exclusive).answer v ask).2.failure? = some (.storage cause)) :
    ask.Reports (.storage cause) := by
  cases ask with
  | request referee grant request =>
      cases request with
      | create room code player =>
          rw [Service.answer_create] at h
          have hfailed := failure?_reply.1 h
          rcases create_inMemory exclusive v referee room code player with
            hcreate | ⟨language, hcreate⟩
          · rw [hcreate] at hfailed
            cases hfailed
          · rw [hcreate] at hfailed
            cases hfailed
      | get room player =>
          rw [Service.answer_get] at h
          have hfailed := failure?_reply.1 h
          cases hduel : v.stored.get? room with
          | none => simp [Service.get, Service.inMemory, Store.memory, hduel] at hfailed
          | some duel =>
              rw [Service.get_of_stored hduel] at hfailed
              split at hfailed <;> simp at hfailed
      | change room change =>
          rw [Service.answer_change] at h
          have hfailed := failure?_reply.1 h
          rcases change_inMemory exclusive v grant room ⟨referee, change⟩ with
            ⟨failure, hwhy, hchange⟩ | ⟨duel, duel', events, -, -, hchange⟩
          · rw [hchange] at hfailed
            obtain rfl := Except.error.inj hfailed
            rcases hwhy with ⟨cause', heq⟩ | ⟨refusal, heq⟩ | hreports
            · cases heq
            · cases heq
            · exact hreports
          · rw [hchange] at hfailed
            cases hfailed
  | load room => cases h
  | loadRound room number => cases h

/-- Whoever has changed a duel is on its roster. -/
theorem Duel.WellFormed.mem_players {duel duel' : Duel} (h : duel.WellFormed) {referee : Referee}
    {change : Change} {events : List Event} (heffect : referee.Effect duel change duel' events)
    {room : RoomId} {player : PlayerId}
    (hplayer : (Request.change room change).player? = some player) :
    player ∈ duel'.room.players := by
  have hstays (hmem : player ∈ duel.room.players) : player ∈ duel'.room.players :=
    (h.grows_effect heffect).players.subset hmem
  have hentered : player ∈ (Referee.admitted duel.room player).players := by
    rw [Duel.admitted_eq]
    by_cases hmember : player ∈ duel.room.players <;> simp [Room.addPlayer, Room.isMember, hmember]
  cases heffect with
  | enter | pair =>
      obtain rfl := Option.some.inj hplayer
      exact hentered
  | guess playable | start playable =>
      obtain rfl := Option.some.inj hplayer
      exact hstays (Duel.playable_iff.1 playable).1
  | close => cases hplayer

theorem get_of_member {exclusive : Bool} {v : World Store.Memory} {room : RoomId} {duel : Duel}
    {player : PlayerId} (hstored : v.stored.get? room = some duel)
    (hmember : player ∈ duel.room.players) :
    (Service.inMemory exclusive).get v room player = .ok duel := by
  rw [Service.get_of_stored hstored]
  simp [Room.isMember, hmember]

/-- A player who is shown a room sees the same on looking at it right after that. -/
theorem get_of_view {exclusive : Bool} {v : World Store.Memory} (hkept : v.stored.Kept)
    {referee : Referee} {grant : Grant} {request : Request} {player : PlayerId} {view : RoomView}
    (hplayer : request.player? = some player)
    (h : ((Service.inMemory exclusive).answer v (.request referee grant request)).2 =
      .reply (.ok (.view view))) :
    ((Service.inMemory exclusive).answer
      ((Service.inMemory exclusive).answer v (.request referee grant request)).1
      (.request referee grant (.get request.room player))).2 = .reply (.ok (.view view)) := by
  cases request with
  | get room asker =>
      obtain rfl := Option.some.inj hplayer
      exact h
  | create room code creator =>
      obtain rfl := Option.some.inj hplayer
      rw [Service.answer_create] at h ⊢
      rcases create_inMemory exclusive v referee room code creator with
        hcreate | ⟨language, hcreate⟩
      · rw [hcreate] at h
        cases h
      · rw [hcreate] at h ⊢
        have hmember := Duel.mem_players_createRoom referee room language creator
        have hstored := SortedMap.get?_insert_self v.stored room
          (referee.createRoom room language creator).1
        rw [Service.answer_get, Request.room, get_of_member hstored hmember]
        exact h
  | change room change =>
      rw [Service.answer_change] at h ⊢
      rcases change_inMemory exclusive v grant room ⟨referee, change⟩ with
        ⟨failure, -, hchange⟩ | ⟨duel, duel', events, hduel, hplay, hchange⟩
      · rw [hchange] at h
        cases h
      · rw [hchange] at h ⊢
        have hwf := (hkept room duel hduel).2.wellFormed
        have hmember := hwf.mem_players (Ply.effect_of_play? hplay) hplayer
        have hstored := SortedMap.get?_insert_self v.stored room duel'
        rw [Service.answer_get, Request.room, get_of_member hstored hmember]
        cases change with
        | join _ | guess _ _ | startRound _ =>
            obtain rfl := Option.some.inj hplayer
            exact h
        | close => cases hplayer

end WordDuel
