import WordDuel.Play.Referee
/-!
# WordDuel.Play.Transition

**What players can do in a room**: create it, come in, guess, ask for the next
round, and see it closed. Each is a move on a working copy of the duel.
-/

namespace WordDuel

namespace Referee

variable (referee : Referee)

/-- Create a room with its first player. -/
def createRoom (id : RoomId) (language : Language) (creator : PlayerId) : Duel × List Event :=
  let room := Room.new id language creator (referee.clock .creation)
  (⟨room, []⟩, [.roomCreated creator room.players])

/-- Why a player may not play in a room. -/
def unplayable? (duel : Duel) (player : PlayerId) : Option Refusal :=
  if duel.room.status = .closed then some (.roomClosed duel.id)
  else if !duel.room.isMember player then some (.playerNotInRoom player)
  else if duel.room.status ≠ .inProgress then some (.roomNotReady duel.id)
  else none

/-- Fail unless a player may play in the room. -/
def ensurePlayable (player : PlayerId) : Move Unit := do
  match unplayable? (← Move.duel) player with
  | some refusal => Move.fail (.refused refusal)
  | none => return ()

/-- Why a player may not come in. -/
def inadmissible? (duel : Duel) (player : PlayerId) : Option Refusal :=
  if duel.room.status = .closed then some (.roomClosed duel.id)
  else if !duel.room.isMember player && duel.room.isFull then some (.roomFull duel.id)
  else none

/-- A room that has found its second player is in progress. -/
def admitted (room : Room) (player : PlayerId) : Room :=
  let room := room.addPlayer player
  if room.isFull ∧ room.status = .waiting then { room with status := .inProgress } else room

/-- Come in, or come back with the points kept. The second player's arrival opens
the first round. -/
def join (player : PlayerId) : Move Unit := do
  let duel ← Move.duel
  match inadmissible? duel player with
  | some refusal => Move.fail (.refused refusal)
  | none => do
    let room := admitted duel.room player
    Move.put { duel with room }
    Move.announce [.playerJoined player room.players]
    -- A player who comes back to a full room opens its first round, if there is none yet.
    if room.isFull ∧ duel.rounds = [] then
      let _ ← referee.openRound

/-- Guess. If the current round has ended the guess opens the next one; the guess
that leaves every player done ends the round. -/
def submitGuess (player : PlayerId) (raw : String) : Move (Nat × Outcome) := do
  ensurePlayable player
  let _ ← referee.ensureActiveRound
  let outcome ← referee.guessInCurrentRound player raw
  -- The guess has changed the round, so it is looked up again.
  let round ← currentRound
  if allDone (← Move.duel).room round then
    let _ ← referee.finishCurrentRound
  return (round.number, outcome)

/-- Ask for the next round. While a round is being played it is left as it is. -/
def startNewRound (player : PlayerId) : Move Unit := do
  ensurePlayable player
  let _ ← referee.ensureActiveRound

/-- Close the room; whether it was open before. -/
def close : Move Bool := do
  let duel ← Move.duel
  if duel.room.status = .closed then return false
  Move.put { duel with room := { duel.room with status := .closed } }
  return true

end Referee

end WordDuel
