import WordDuel.Play.Transition
/-!
# WordDuel.Play.Course

**The course of a duel**: one attempt to change it after the other. Each attempt is
judged by a referee of its own, so that the rules, the words and the time may be
others every time. An attempt that fails leaves the duel as it was and announces
nothing.
-/

namespace WordDuel

/-- What a player can do to a room that exists. -/
inductive Change
  /-- Come in. -/
  | join (player : PlayerId)
  | guess (player : PlayerId) (raw : String)
  /-- Ask for the next round. -/
  | startRound (player : PlayerId)
  /-- Close the room. -/
  | close

/-- The move that makes a change. -/
def Change.move (referee : Referee) : Change → Move Unit
  | .join player => referee.join player
  | .guess player raw => do let _ ← referee.submitGuess player raw
  | .startRound player => referee.startNewRound player
  | .close => do let _ ← Referee.close

/-- An attempt to change a duel. -/
structure Ply where
  /-- Who judges it. -/
  referee : Referee
  /-- What is attempted. -/
  change : Change

namespace Ply

variable (ply : Ply) (duel : Duel)

/-- What comes of an attempt: the changed duel and the events, or the failure. -/
def play? : Result (Duel × List Event) :=
  ((ply.change.move ply.referee).commit? duel).map Prod.snd

/-- The duel after an attempt. -/
def after : Duel := (ply.play? duel).toOption.elim duel Prod.fst

/-- What is announced because of an attempt. -/
def events : List Event := (ply.play? duel).toOption.elim [] Prod.snd

/-- What whoever made the attempt is told: the changed duel or the failure. -/
def result : Result Duel := (ply.play? duel).map Prod.fst

end Ply

namespace Duel

/-- The duel after some attempts, one after the other. -/
def course (duel : Duel) (plies : List Ply) : Duel := plies.foldl (fun d ply => ply.after d) duel

/-- What is announced in the course of some attempts. -/
def courseEvents (duel : Duel) : List Ply → List Event
  | [] => []
  | ply :: plies => ply.events duel ++ (ply.after duel).courseEvents plies

/-- The duels that can come about: a room is created, and then anybody attempts
anything, under any rules that let a player guess at least once. -/
inductive Reachable : Duel → Prop
  /-- A new room. -/
  | created (referee : Referee) (id : RoomId) (language : Language) (creator : PlayerId) :
    Reachable (referee.createRoom id language creator).1
  /-- One more attempt. -/
  | played {duel : Duel} (ply : Ply) (guesses : 1 ≤ ply.referee.rules.maxAttempts)
    (reachable : Reachable duel) : Reachable (ply.after duel)

/-- A duel to which some course of attempts leads from a new room, each under any rules
whatever. -/
def Arises (duel : Duel) : Prop :=
  ∃ (referee : Referee) (id : RoomId) (language : Language) (creator : PlayerId)
    (plies : List Ply), (referee.createRoom id language creator).1.course plies = duel

/-- What a new room has and no attempt takes away, every duel that arises has. -/
theorem Arises.induction {P : Duel → Prop}
    (created : ∀ (referee : Referee) (id : RoomId) (language : Language) (creator : PlayerId),
      P (referee.createRoom id language creator).1)
    (after : ∀ (duel : Duel) (ply : Ply), P duel → P (ply.after duel)) {duel : Duel}
    (h : duel.Arises) : P duel := by
  obtain ⟨referee, id, language, creator, plies, rfl⟩ := h
  suffices hcourse : ∀ duel, P duel → P (duel.course plies) from hcourse _ (created _ _ _ _)
  induction plies with
  | nil => exact fun _ hduel => hduel
  | cons ply plies ih => exact fun duel hduel => ih _ (after duel ply hduel)

end Duel

end WordDuel
