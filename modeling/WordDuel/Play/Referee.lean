import WordDuel.GuessRules
import WordDuel.Marking
import WordDuel.Play.Move
/-!
# WordDuel.Play.Referee

**The rules of play**: opening a round, judging a guess, ending a round and paying
the winners.

A referee is what one move is judged with: the rules in force, the dictionary, a
clock and a draw. Nothing is assumed of the draw; it only decides which of the
eligible words becomes the target, so a statement for every referee holds for
every choice of words. Nor is anything assumed of the clock, which is read anew on
every occasion and may show another time, even an earlier one.
-/

namespace WordDuel

/-- The rules in force. -/
structure Rules where
  /-- The number of letters of a target. -/
  wordLength : Nat := 5
  /-- How many guesses each player of a new round has. -/
  maxAttempts : Nat := 6
  deriving DecidableEq

/-- When the clock is read; in one move at most once on each occasion. -/
inductive Occasion
  /-- A room comes into being. -/
  | creation
  /-- A round is opened. -/
  | opening
  /-- A guess is accepted. -/
  | guess
  /-- A round ends. -/
  | ending
  deriving DecidableEq

/-- What a move is judged with. -/
structure Referee where
  /-- The rules in force. -/
  rules : Rules
  /-- The words. -/
  dictionary : Dictionary
  /-- What the clock shows on each occasion. -/
  clock : Occasion → Instant
  /-- The draw that picks a target. -/
  draw : Nat

/-- What an accepted guess did. -/
structure Outcome where
  /-- Which of the player's attempts it was, from 1. -/
  attempt : Nat
  /-- The letters with their marks. -/
  letters : List MarkedLetter
  /-- How the player stands now. -/
  standing : Standing
  deriving DecidableEq

namespace Referee

variable (referee : Referee)

/-! ### Opening a round -/

/-- The words of a set that can be the target. -/
def eligible (words : WordSet) : List String :=
  words.words.filter fun w => w.length == referee.rules.wordLength

/-- Draw a target in a language. -/
def pickTarget (language : Language) : Result String :=
  match referee.dictionary.answers language with
  | .error failure => .error failure
  | .ok words =>
    match (referee.eligible words)[referee.draw % (referee.eligible words).length]? with
    | some target => .ok target
    | none => .error (.refused (.dictionaryEmpty language))

/-- A new round of a room. Numbers of rounds have 32 bits; that they overflow after 2³² - 1 rounds,
where a checked build stops, is left out. -/
def newRound (duel : Duel) (target : String) : Round where
  room := duel.id
  number := duel.maxRoundNumber?.elim 1 (· + 1)
  target := target
  maxAttempts := referee.rules.maxAttempts
  status := .playing
  standings := .ofList (duel.room.players.map (·, .playing))
  guesses := []
  startedAt := referee.clock .opening
  finishedAt := none

/-- Open the next round of a room with two players and make it the current one. -/
def openRound : Move Nat := do
  let duel ← Move.duel
  if duel.room.players.length ≠ maxPlayers then
    Move.fail (.refused (.roomNotReady duel.id))
  let target ← Move.ofResult (referee.pickTarget duel.room.language)
  let round := referee.newRound duel target
  Move.put
    { room := { duel.room with currentRound := some round.number }
      rounds := duel.rounds ++ [round] }
  Move.announce [.roundStarted round.number round.maxAttempts]
  return round.number

/-- The current round. -/
def currentRound : Move Round := do
  let duel ← Move.duel
  match duel.currentRound? with
  | some round => return round
  | none => Move.fail (.storage (.noCurrentRound duel.id))

/-- The round that a guess goes to: the current one, or a new one if there is none
or it has ended. -/
def ensureActiveRound : Move Round := do
  -- A current round that is not there counts as ended.
  if (← Move.duel).currentRound?.all Round.isFinished then
    let _ ← referee.openRound
  currentRound

/-! ### Judging a guess -/

/-- How a player stands after a guess. -/
def standingAfter (round : Round) (word : String) (attempt : Nat) : Standing :=
  if word = round.target then .won
  else if attempt = round.maxAttempts then .lost
  else .playing

/-- Why a player may not guess at all, whatever the guess. -/
def barred? (round : Round) (player : PlayerId) : Option Refusal :=
  match round.standingOf? player with
  | none => some (.playerNotInRoom player)
  | some standing =>
    if standing.isTerminal then some (.playerAlreadyDone player)
    else if round.maxAttempts < round.attemptsUsed player + 1 then
      some (.noAttemptsLeft round.maxAttempts)
    else none

/-- A round with one more guess, after which the player stands as given. -/
def record (round : Round) (guess : Guess) (standing : Standing) : Round :=
  { round with
    guesses := round.guesses ++ [guess]
    standings :=
      if standing.isTerminal then round.standings.insert guess.player standing
      else round.standings }

/-- Judge a guess in a round of a room: the round with the guess and what the guess
did. A guess that is refused leaves no trace. -/
def judge (room : Room) (round : Round) (player : PlayerId) (raw : String) :
    Result (Round × Outcome) :=
  match barred? round player with
  | some refusal => .error (.refused refusal)
  | none =>
    let word := GuessRules.normalize raw
    match GuessRules.check referee.dictionary referee.rules.wordLength word round.target
        (some room.language) with
    | .error failure => .error failure
    | .ok () =>
      let attempt := round.attemptsUsed player + 1
      let letters := Marking.mark round.target word
      let standing := standingAfter round word attempt
      .ok (record round ⟨player, word, attempt, letters, referee.clock .guess⟩ standing,
        ⟨attempt, letters, standing⟩)

/-- Put a guess to the current round. When the player is done with the round the
points are announced again, though they change only when the round ends. -/
def guessInCurrentRound (player : PlayerId) (raw : String) : Move Outcome := do
  let duel ← Move.duel
  let round ← currentRound
  let (round, outcome) ← Move.ofResult (referee.judge duel.room round player raw)
  Move.put (duel.setRound round)
  if outcome.standing.isTerminal then
    Move.announce [.scoresUpdated duel.room.scoreboard]
  return outcome

/-! ### Ending a round -/

/-- Whether every player of the room is done with the round. -/
def allDone (room : Room) (round : Round) : Bool := room.players.all round.isDone

/-- The points of a room with one more for each winner of a round. Points have 32 bits and a sign;
that they overflow after 2³¹ - 1 rounds won, where a checked build stops, is left out. -/
def pay (room : Room) (round : Round) : Room :=
  { room with
    scores := round.standings.entries.foldl
      (fun scores p =>
        if p.2 = .won then scores.insert p.1 ((scores.get? p.1).getD 0 + 1) else scores)
      room.scores }

/-- A round that has ended now. -/
def ended (round : Round) : Round :=
  { round with status := .ended, finishedAt := some (referee.clock .ending) }

/-- End the current round and pay its winners, unless it has ended already. -/
def finishCurrentRound : Move Bool := do
  let duel ← Move.duel
  let round ← currentRound
  if round.isFinished then return false
  let room := pay duel.room round
  Move.put { duel.setRound (referee.ended round) with room }
  Move.announce [.roundFinished round.number, .scoresUpdated room.scoreboard]
  return true

end Referee

end WordDuel
