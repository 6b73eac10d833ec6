/-!
# WordDuel.Status

**How far things have come**: a room, a round, and a player within a round, each
with the names under which its stages are written and stored.
-/

namespace WordDuel

/-! ### Stages -/

/-- How far a room has come. -/
inductive RoomStatus
  /-- The second player has not arrived. -/
  | waiting
  /-- Both players are in and rounds are played. -/
  | inProgress
  /-- Nothing changes any more. -/
  | closed
  deriving DecidableEq, Repr

/-- How far a round has come. -/
inductive RoundStatus
  /-- Some player can still guess. -/
  | playing
  /-- Every player has won or lost. -/
  | ended
  deriving DecidableEq, Repr

/-- How a player stands in a round. -/
inductive Standing
  /-- The player can still guess. -/
  | playing
  /-- The player found the word. -/
  | won
  /-- The player has used up all attempts. -/
  | lost
  deriving DecidableEq, Repr

instance : Inhabited RoomStatus := ⟨.waiting⟩
instance : Inhabited RoundStatus := ⟨.playing⟩
instance : Inhabited Standing := ⟨.playing⟩

/-! ### Names -/

/-- A name that is not the name of a stage, and the kind of stage it was read as. -/
structure UnknownName where
  /-- What a stage of this kind is called. -/
  kind : String
  /-- The name that was read. -/
  name : String
  deriving DecidableEq

/-- The wording of the failure to read a name. -/
def UnknownName.message (u : UnknownName) : String :=
  "unknown " ++ u.kind ++ " value: " ++ u.name

/-- Read a name as one of some stages. -/
def readName (kind : String) (nameOf : α → String) (stages : List α) (name : String) :
    Except UnknownName α :=
  match stages.find? fun a => nameOf a == name with
  | some a => .ok a
  | none => .error ⟨kind, name⟩

namespace RoomStatus

/-- Every stage of a room in order. -/
def all : List RoomStatus := [.waiting, .inProgress, .closed]

/-- The name of a stage. -/
def name : RoomStatus → String
  | .waiting => "WAITING_FOR_PLAYERS"
  | .inProgress => "IN_PROGRESS"
  | .closed => "CLOSED"

/-- Read a stage by its name. -/
def ofName : String → Except UnknownName RoomStatus := readName "room status" name all

@[simp] theorem ofName_name (s : RoomStatus) : ofName s.name = .ok s := by cases s <;> rfl

end RoomStatus

namespace RoundStatus

/-- Every stage of a round in order. -/
def all : List RoundStatus := [.playing, .ended]

/-- The name of a stage. -/
def name : RoundStatus → String
  | .playing => "PLAYING"
  | .ended => "ENDED"

/-- Read a stage by its name. -/
def ofName : String → Except UnknownName RoundStatus := readName "round status" name all

@[simp] theorem ofName_name (s : RoundStatus) : ofName s.name = .ok s := by cases s <;> rfl

end RoundStatus

namespace Standing

/-- Every standing. -/
def all : List Standing := [.playing, .won, .lost]

/-- The name of a standing. -/
def name : Standing → String
  | .playing => "PLAYING"
  | .won => "WON"
  | .lost => "LOST"

/-- Read a standing by its name. -/
def ofName : String → Except UnknownName Standing := readName "player round status" name all

/-- Whether the player is done with the round. -/
def isTerminal : Standing → Bool
  | .playing => false
  | .won | .lost => true

@[simp] theorem ofName_name (s : Standing) : ofName s.name = .ok s := by cases s <;> rfl

end Standing

end WordDuel
