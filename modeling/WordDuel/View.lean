import WordDuel.Event
import WordDuel.Language
import WordDuel.Letter
import WordDuel.Status
/-!
# WordDuel.View

**What one player sees of a room.** Times are RFC 3339 text; words that the
player must not see yet are left out.
-/

namespace WordDuel

/-- How a player stands in a round, as shown. -/
structure Progress where
  player : PlayerId
  /-- Whether the player has won or lost. -/
  standing : Standing
  /-- The number of guesses made. -/
  attemptsUsed : Nat
  deriving DecidableEq

/-- A guess, as shown. -/
structure GuessView where
  /-- Who guessed. -/
  player : PlayerId
  /-- Which of the player's attempts it was, from 1. -/
  attempt : Nat
  /-- The guessed word, if it may be seen. -/
  word : Option String
  /-- The letters with their marks. -/
  letters : List MarkedLetter
  /-- When the guess was made. -/
  createdAt : String
  deriving DecidableEq

/-- A round, as shown. -/
structure RoundView where
  /-- The number of the round. -/
  number : Nat
  /-- The number of letters of the target. -/
  wordLength : Nat
  /-- How many guesses each player has. -/
  maxAttempts : Nat
  /-- How far the round has come. -/
  status : RoundStatus
  /-- The target, if it may be seen. -/
  target : Option String
  /-- The players of the round in roster order. -/
  players : List Progress
  /-- The guesses in the order in which they were made. -/
  guesses : List GuessView
  /-- When the round was opened. -/
  startedAt : String
  /-- When the round ended, if it has. -/
  finishedAt : Option String
  deriving DecidableEq

/-- A room, as shown. -/
structure RoomView where
  /-- The room. -/
  id : RoomId
  /-- The language it is played in. -/
  language : Language
  /-- How far it has come. -/
  status : RoomStatus
  /-- The points in roster order. -/
  players : List Score
  /-- The current round, if any. -/
  currentRound : Option RoundView
  /-- When the room came into being. -/
  createdAt : String
  deriving DecidableEq

/-- Whether the round has ended. -/
def RoundView.isFinished (v : RoundView) : Bool := v.status == .ended

/-- How a player stands in the round shown. -/
def RoundView.standingOf? (v : RoundView) (player : PlayerId) : Option Standing :=
  (v.players.find? fun p => p.player == player).map Progress.standing

/-- A player's points in the room shown. -/
def RoomView.pointsOf? (v : RoomView) (player : PlayerId) : Option Int :=
  (v.players.find? fun s => s.player == player).map Score.points

end WordDuel
