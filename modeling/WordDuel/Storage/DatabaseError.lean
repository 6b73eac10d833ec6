import WordDuel.Failure
/-!
# WordDuel.Storage.DatabaseError

**What a database reports**, and what becomes of it: waiting too long for a lock
makes the room busy, everything else is a storage failure in the context of the
room.
-/

namespace WordDuel

/-- An error of the database, with its text. -/
inductive DatabaseError
  /-- An error of no particular kind. -/
  | custom (text : String)
  /-- The database cannot be reached. -/
  | connection (text : String)
  /-- A statement failed. -/
  | execution (text : String)
  /-- A query failed. -/
  | query (text : String)
  /-- A row is missing. -/
  | recordNotFound (text : String)
  /-- A value has the wrong type. -/
  | type (text : String)
  /-- A JSON value cannot be read. -/
  | json (text : String)
  /-- The schema cannot be brought up to date. -/
  | migration (text : String)
  deriving DecidableEq

namespace DatabaseError

/-- The wording of an error. -/
def message : DatabaseError → String
  | .custom text => "Custom Error: " ++ text
  | .connection text => "Connection Error: " ++ text
  | .execution text => "Execution Error: " ++ text
  | .query text => "Query Error: " ++ text
  | .recordNotFound text => "RecordNotFound Error: " ++ text
  | .type text => "Type Error: " ++ text
  | .json text => "Json Error: " ++ text
  | .migration text => "Migration Error: " ++ text

/-- The wordings of an error and of what is behind it. Errors of the running
database have what it said behind them. -/
def chain (e : DatabaseError) : List String :=
  match e with
  | .connection text | .execution text | .query text => [e.message, text]
  | _ => [e.message]

/-- What the messages of databases about a lock that was not obtained have in them. -/
def lockWaitMarks : List String :=
  ["55P03", "lock_not_available", "database is locked", "database table is locked",
   "SQLITE_BUSY"]

/-- Whether a list of characters has another one in it. -/
def occursIn (part : List Char) : List Char → Bool
  | [] => part.isEmpty
  | c :: cs => part.isPrefixOf (c :: cs) || occursIn part cs

/-- Whether a message tells of a lock that was not obtained. -/
def isLockWait (text : String) : Bool :=
  lockWaitMarks.any fun mark => occursIn mark.toList text.toList

/-- What an error in the course of work on a room becomes. -/
def toFailure (e : DatabaseError) (room : RoomId) : Failure :=
  if isLockWait e.message then .refused (.roomBusy room) else .storage (.refused room e.chain)

/-- What it becomes where the words of the database are not passed on. -/
def toBriefFailure (e : DatabaseError) (room : RoomId) : Failure :=
  if isLockWait e.message then .refused (.roomBusy room) else .storage (.refused room [])

end DatabaseError

end WordDuel
