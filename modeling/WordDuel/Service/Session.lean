import WordDuel.Service.Request
/-!
# WordDuel.Service.Session

**One call after the other**: requests to a service, and between them looks into its store.
Every request is judged by a referee of its own, who is given with it just as the id of a
new room is, so that a session can be repeated on another store.
-/

namespace WordDuel

/-- A call of a service or of its store. -/
inductive Ask
  /-- The service is asked for something, and gets the lock if it needs one. -/
  | request (referee : Referee) (grant : Grant) (request : Request)
  /-- The store is asked for the duel of a room. -/
  | load (room : RoomId)
  /-- The store is asked for one round of a room. -/
  | loadRound (room : RoomId) (number : Nat)

/-- The answer to a call. -/
inductive Told
  /-- The service has answered. -/
  | reply (result : Result Reply)
  /-- What the store has for a room. -/
  | duel (result : Result (Option Duel))
  /-- What the store has for a round. -/
  | round (result : Result (Option Round))

/-- The room that a call creates, if it does. -/
def Ask.created? : Ask → Option RoomId
  | .request _ _ (.create room _ _) => some room
  | _ => none

/-- The counts in a call are numbers of 32 bits. -/
def Ask.InRange : Ask → Prop
  | .request referee _ _ => referee.rules.maxAttempts < 4294967296
  | .load _ => True
  | .loadRound _ number => number < 4294967296

/-- Who makes a request, if that matters. -/
def Request.player? : Request → Option PlayerId
  | .create _ _ player | .get _ player => some player
  | .change _ (.join player) | .change _ (.guess player _) | .change _ (.startRound player) =>
    some player
  | .change _ .close => none

/-- What a call has failed with. -/
def Told.failure? : Told → Option Failure
  | .reply (.error failure) | .duel (.error failure) | .round (.error failure) => some failure
  | _ => none

namespace Service

variable {σ : Type} (service : Service σ)

/-- Answer a call. -/
def answer (w : World σ) : Ask → World σ × Told
  | .request referee grant request =>
    let (w, result) := service.perform referee (fun _ => grant) w request
    (w, .reply result)
  | .load room => (w, .duel (service.store.load w.stored room))
  | .loadRound room number => (w, .round (service.store.loadRound w.stored room number))

theorem answer_create (w : World σ) (referee : Referee) (grant : Grant) (room : RoomId)
    (code : String) (player : PlayerId) :
    service.answer w (.request referee grant (.create room code player)) =
      ((service.create referee w room code player).1,
        .reply ((service.create referee w room code player).2.map fun duel =>
          .view (duel.viewFor player))) := by
  rw [answer, perform]

theorem answer_get (w : World σ) (referee : Referee) (grant : Grant) (room : RoomId)
    (player : PlayerId) :
    service.answer w (.request referee grant (.get room player)) =
      (w, .reply ((service.get w room player).map fun duel => .view (duel.viewFor player))) :=
  rfl

theorem answer_change (w : World σ) (referee : Referee) (grant : Grant) (room : RoomId)
    (change : Change) :
    service.answer w (.request referee grant (.change room change)) =
      ((service.change w grant room (change.move referee)).1,
        .reply ((service.change w grant room (change.move referee)).2.map change.reply)) := by
  rw [answer, perform]

/-- The world after some calls. -/
def worldAfter (w : World σ) (asks : List Ask) : World σ :=
  asks.foldl (fun w ask => (service.answer w ask).1) w

theorem worldAfter_cons (w : World σ) (ask : Ask) (asks : List Ask) :
    service.worldAfter w (ask :: asks) = service.worldAfter (service.answer w ask).1 asks :=
  rfl

theorem worldAfter_append (w : World σ) (earlier later : List Ask) :
    service.worldAfter w (earlier ++ later) =
      service.worldAfter (service.worldAfter w earlier) later :=
  List.foldl_append

/-- What can be seen of some calls: their answers, and where events have gone by then. -/
def session (w : World σ) : List Ask → List (Told × Sink)
  | [] => []
  | ask :: asks =>
    let (w, told) := service.answer w ask
    (told, w.sink) :: session w asks

theorem session_cons (w : World σ) (ask : Ask) (asks : List Ask) :
    service.session w (ask :: asks) =
      ((service.answer w ask).2, (service.answer w ask).1.sink) ::
        service.session (service.answer w ask).1 asks :=
  rfl

end Service

end WordDuel
