import WordDuel.Refusal
import WordDuel.Status
/-!
# WordDuel.Failure

**How an operation fails**: by a refusal, which is part of the game, or by
something below the game, whose cause is kept and worded from the outermost
context inwards.
-/

namespace WordDuel

/-! ### Causes -/

/-- What goes wrong with stored rooms. -/
inductive StorageCause
  /-- A room does not have the round that it names as its current one. -/
  | noCurrentRound (room : RoomId)
  /-- A stored language code names no language. -/
  | unknownLanguage (room : RoomId) (code : String)
  /-- A stored stage has an unknown name. -/
  | unknownName (name : UnknownName)
  /-- The stored letters of a guess cannot be read. -/
  | badLetters (attempt round : Int)
  /-- The database refused a statement about a room; what it said, if known. -/
  | refused (room : RoomId) (said : List String)
  /-- A store reported this, outermost context first. -/
  | reported (chain : List String)
  deriving DecidableEq

/-- What goes wrong with word lists. -/
inductive DictionaryCause
  /-- A word list exists and cannot be read. -/
  | unreadable (path : String)
  /-- A source of words reported this, outermost context first. -/
  | reported (chain : List String)
  deriving DecidableEq

/-- What goes wrong with locks. -/
inductive LockCause
  /-- A lease was found lost before its holder gave it back. -/
  | lost (key : String)
  /-- A lease had ended when its holder gave it back. -/
  | expired (key : String)
  /-- The lease server could not be asked. -/
  | unavailable
  /-- A provider reported this, outermost context first. -/
  | reported (chain : List String)
  deriving DecidableEq

/-- The contexts of a cause and its root, outermost first. -/
def StorageCause.chain : StorageCause → List String
  | .noCurrentRound room => ["room " ++ room.toText ++ " has no current round"]
  | .unknownLanguage room code => ["room " ++ room.toText ++ " has unknown language " ++ code]
  | .unknownName name => [name.message]
  | .badLetters attempt round =>
    ["bad letters for guess " ++ Decimal.ofInt attempt ++ " of round " ++ Decimal.ofInt round]
  | .refused room said => ("room " ++ room.toText) :: said
  | .reported chain => chain

/-- The contexts of a cause and its root, outermost first. -/
def DictionaryCause.chain : DictionaryCause → List String
  | .unreadable path => ["failed to read word list " ++ path]
  | .reported chain => chain

/-- The contexts of a cause and its root, outermost first. -/
def LockCause.chain : LockCause → List String
  | .lost key => ["lock " ++ key ++ " was lost while held"]
  | .expired key => ["lock " ++ key ++ " expired before it was released"]
  | .unavailable => ["<redis>"]
  | .reported chain => chain

/-- A chain of contexts in one line. -/
def joinChain (chain : List String) : String := ": ".intercalate chain

/-! ### Failures -/

/-- Why an operation failed. -/
inductive Failure
  /-- The rules of the game do not allow it. -/
  | refused (refusal : Refusal)
  /-- Stored rooms could not be read or written. -/
  | storage (cause : StorageCause)
  /-- The word lists could not be read. -/
  | dictionary (cause : DictionaryCause)
  /-- A lock could not be obtained or given back. -/
  | lock (cause : LockCause)
  deriving DecidableEq

namespace Failure

instance : Coe Refusal Failure := ⟨.refused⟩

/-- The refusal, if the failure is one. -/
def refusal? : Failure → Option Refusal
  | .refused refusal => some refusal
  | _ => none

/-- The stable code of a failure. -/
def code : Failure → String
  | .refused refusal => refusal.code
  | .storage _ => "STORAGE_FAILURE"
  | .dictionary _ => "DICTIONARY_FAILURE"
  | .lock _ => "LOCK_FAILURE"

/-- Whether the same operation may succeed a moment later. -/
def isRetryable (f : Failure) : Bool := f.refusal?.any Refusal.isRetryable

/-- The wording of a failure. -/
def message : Failure → String
  | .refused refusal => refusal.message
  | .storage cause => "storage failure: " ++ joinChain cause.chain
  | .dictionary cause => "dictionary failure: " ++ joinChain cause.chain
  | .lock cause => "lock provider failure: " ++ joinChain cause.chain

end Failure

/-- What an operation gives: a value or the failure that prevented it. -/
abbrev Result (α : Type) := Except Failure α

end WordDuel
