import WordDuel.SortedMap
import WordDuel.Time.Rfc3339
import WordDuel.View
/-!
# WordDuel.Duel

**A duel**: a room with all its rounds and their guesses, and what each player may
see of it.

The roster of a room is in the order of arrival. Rounds are found by number, and
the first of that number counts. A player who is still guessing sees neither the
target nor the words of the opponent, only how their letters were marked.
-/

namespace WordDuel

/-! ### The parts -/

/-- The number of players of a full room. -/
def maxPlayers : Nat := 2

/-- A room. -/
structure Room where
  /-- The name of the room. -/
  id : RoomId
  /-- The language it is played in. -/
  language : Language
  /-- How far it has come. -/
  status : RoomStatus
  /-- The players in the order of arrival. -/
  players : List PlayerId
  /-- The points of each player. -/
  scores : SortedMap PlayerId Int
  /-- The number of the round that is played, if any. -/
  currentRound : Option Nat
  /-- When the room came into being. -/
  createdAt : Instant
  deriving DecidableEq

/-- A guess that counts. -/
structure Guess where
  /-- Who guessed. -/
  player : PlayerId
  /-- The guessed word. -/
  word : String
  /-- Which of the player's attempts it is, from 1. -/
  attempt : Nat
  /-- The letters with their marks. -/
  letters : List MarkedLetter
  /-- When the guess was made. -/
  createdAt : Instant
  deriving DecidableEq

/-- A round. -/
structure Round where
  /-- The room it is played in. -/
  room : RoomId
  /-- The number of the round. -/
  number : Nat
  /-- The word to be found. -/
  target : String
  /-- How many guesses each player has. -/
  maxAttempts : Nat
  /-- How far the round has come. -/
  status : RoundStatus
  /-- How each player stands. -/
  standings : SortedMap PlayerId Standing
  /-- The guesses in the order in which they were made. -/
  guesses : List Guess
  /-- When the round was opened. -/
  startedAt : Instant
  /-- When the round ended, if it has. -/
  finishedAt : Option Instant
  deriving DecidableEq

/-- A room with all its rounds. -/
structure Duel where
  room : Room
  /-- The rounds in the order in which they were opened. -/
  rounds : List Round
  deriving DecidableEq

/-! ### Rooms -/

namespace Room

/-- Whether a player is on the roster. -/
def isMember (room : Room) (player : PlayerId) : Bool := room.players.contains player

/-- Whether there is no place left. -/
def isFull (room : Room) : Bool := maxPlayers ≤ room.players.length

/-- A player's points; nobody starts below zero. -/
def pointsOf (room : Room) (player : PlayerId) : Int := (room.scores.get? player).getD 0

/-- Put a player on the roster who is not there yet. Points once won are kept. -/
def addPlayer (room : Room) (player : PlayerId) : Room :=
  { room with
    players := if room.isMember player then room.players else room.players ++ [player]
    scores := room.scores.insert player (room.pointsOf player) }

/-- The points in roster order. -/
def scoreboard (room : Room) : List Score :=
  room.players.map fun player => ⟨player, room.pointsOf player⟩

/-- A room with its first player. -/
def new (id : RoomId) (language : Language) (creator : PlayerId) (now : Instant) : Room :=
  addPlayer ⟨id, language, .waiting, [], .empty, none, now⟩ creator

end Room

/-! ### Rounds -/

namespace Round

/-- Whether the round has ended. -/
def isFinished (round : Round) : Bool := round.status == .ended

/-- How a player stands, if the player is part of the round. -/
def standingOf? (round : Round) (player : PlayerId) : Option Standing :=
  round.standings.get? player

/-- Whether a player has won or lost the round. -/
def isDone (round : Round) (player : PlayerId) : Bool :=
  (round.standingOf? player).any Standing.isTerminal

/-- The guesses of a player, in order. -/
def guessesBy (round : Round) (player : PlayerId) : List Guess :=
  round.guesses.filter fun g => g.player == player

/-- The number of guesses a player has made. The program counts them in 32 bits, which is enough
as long as limits have 32 bits, for no player guesses more often than the limit allows. -/
def attemptsUsed (round : Round) (player : PlayerId) : Nat := (round.guessesBy player).length

/-- The number of letters of the target. -/
def wordLength (round : Round) : Nat := round.target.length

end Round

/-! ### Duels -/

namespace Duel

/-- The name of the room. -/
def id (duel : Duel) : RoomId := duel.room.id

/-- The first round of a number. -/
def round? (duel : Duel) (number : Nat) : Option Round :=
  duel.rounds.find? fun r => r.number == number

/-- The round that is played. -/
def currentRound? (duel : Duel) : Option Round :=
  duel.room.currentRound.bind duel.round?

/-- Put a round in the place of the first one of its number in a list. -/
def replaceRound (round : Round) : List Round → List Round
  | [] => []
  | r :: rs => if r.number == round.number then round :: rs else r :: replaceRound round rs

/-- Put a round in the place of the first one of its number. -/
def setRound (duel : Duel) (round : Round) : Duel :=
  { duel with rounds := replaceRound round duel.rounds }

/-- The largest number of a round. -/
def maxRoundNumber? (duel : Duel) : Option Nat := (duel.rounds.map Round.number).max?

end Duel

/-! ### What a player sees -/

/-- Whether a player may see the words of a round: once it has ended, or the player
is done with it. -/
def Round.isOpenTo (round : Round) (requester : PlayerId) : Bool :=
  round.isFinished || round.isDone requester

/-- A guess as a player sees it. One's own words are never hidden. -/
def Guess.view (guess : Guess) (isOpen : Bool) (requester : PlayerId) : GuessView where
  player := guess.player
  attempt := guess.attempt
  word := if isOpen || guess.player == requester then some guess.word else none
  letters := guess.letters
  createdAt := guess.createdAt.toRfc3339

/-- A player's line in the view of a round, if the player is part of it. -/
def Round.progressOf? (round : Round) (player : PlayerId) : Option Progress :=
  (round.standingOf? player).map fun standing => ⟨player, standing, round.attemptsUsed player⟩

/-- A round of a room as a player sees it. The program shows the number of letters in 32 bits;
that it wraps around for words of 2³² letters or more is left out. -/
def Round.view (round : Round) (room : Room) (requester : PlayerId) : RoundView where
  number := round.number
  wordLength := round.wordLength
  maxAttempts := round.maxAttempts
  status := round.status
  target := if round.isOpenTo requester then some round.target else none
  players := room.players.filterMap round.progressOf?
  guesses := round.guesses.map fun g => g.view (round.isOpenTo requester) requester
  startedAt := round.startedAt.toRfc3339
  finishedAt := round.finishedAt.map Instant.toRfc3339

/-- A duel as a player sees it. -/
def Duel.viewFor (duel : Duel) (requester : PlayerId) : RoomView where
  id := duel.room.id
  language := duel.room.language
  status := duel.room.status
  players := duel.room.scoreboard
  currentRound := duel.currentRound?.map fun r => r.view duel.room requester
  createdAt := duel.room.createdAt.toRfc3339

end WordDuel
