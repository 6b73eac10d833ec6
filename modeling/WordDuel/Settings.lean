import WordDuel.Text.Blank
import WordDuel.Text.Decimal
import WordDuel.Text.Uppercase
/-!
# WordDuel.Settings

**Settings of a server**, read from named variables. A variable that is not set
takes its default; one that is set must be readable. Variables are read in a fixed
order, and the first that cannot be read is reported; only settings that are all
readable are checked against each other.
-/

namespace WordDuel

/-- How rooms are locked. -/
inductive LockBackend
  /-- Within this process. -/
  | inProcess
  /-- On a server shared by several processes. -/
  | shared
  deriving DecidableEq, Repr

/-- The name of a way to lock rooms. -/
def LockBackend.name : LockBackend → String
  | .inProcess => "local"
  | .shared => "redis"

/-- The settings of a server. -/
structure Settings where
  /-- Where rooms are stored. -/
  databaseUrl : String
  /-- Where the word lists are. -/
  wordsDirectory : String
  /-- The number of letters of a target. -/
  wordLength : Nat
  /-- How many guesses each player of a round has. -/
  maxAttempts : Nat
  /-- How long to wait for the lock of a room, in milliseconds. -/
  lockTimeoutMs : Nat
  /-- How rooms are locked. -/
  lockBackend : LockBackend
  /-- Where the shared lock server is. -/
  redisUrl : Option String
  /-- How long a shared lock lasts unless renewed, in milliseconds. -/
  lockTtlMs : Nat
  /-- Whether a room's row is locked too while the room is changed. -/
  exclusiveRowLock : Bool
  /-- How long word lists are remembered, in seconds. -/
  dictionaryCacheTtlSeconds : Nat
  deriving DecidableEq

namespace Settings

/-! ### Single variables -/

/-- Why the text of a variable cannot be read. -/
inductive ValueFault
  /-- It is no numeral within bounds. -/
  | numeral (fault : Decimal.Fault)
  /-- It is neither `true` nor `false`. -/
  | truth
  /-- It names no way to lock rooms. -/
  | backend (name : String)
  deriving DecidableEq

/-- The wording of a fault. -/
def ValueFault.message : ValueFault → String
  | .numeral fault => fault.message
  | .truth => "provided string was not \u0060true\u0060 or \u0060false\u0060"
  | .backend name => "unknown lock backend '" ++ name ++ "', expected 'local' or 'redis'"

/-- The largest number of 64 bits. -/
def max64 : Nat := 18446744073709551615

/-- The largest number of 32 bits. -/
def max32 : Nat := 4294967295

/-- Read a number of at most `bound`. -/
def readNumber (bound : Nat) (text : String) : Except ValueFault Nat :=
  (Decimal.readUpTo bound text.toList).mapError .numeral

/-- Read a truth value. -/
def readTruth (text : String) : Except ValueFault Bool :=
  if text = "true" then .ok true
  else if text = "false" then .ok false
  else .error .truth

/-- Read a way to lock rooms; the case of the name does not matter. -/
def readBackend (text : String) : Except ValueFault LockBackend :=
  let name := Text.lowerAscii (Text.trim text)
  if name = LockBackend.inProcess.name then .ok .inProcess
  else if name = LockBackend.shared.name then .ok .shared
  else .error (.backend name)

/-! ### All variables -/

/-- Why settings are not accepted. -/
inductive Fault
  /-- A variable cannot be read. -/
  | invalid (key raw : String) (fault : ValueFault)
  /-- Targets would have no letters. -/
  | zeroWordLength
  /-- Players would have no guesses. -/
  | zeroMaxAttempts
  /-- Locks are to be shared and nothing says where. -/
  | missingRedisUrl
  /-- A shared lock might end while somebody still waits for it. -/
  | ttlTooShort
  deriving DecidableEq

/-- The wording of a fault. -/
def Fault.message : Fault → String
  | .invalid key raw fault => "Invalid " ++ key ++ ": '" ++ raw ++ "': " ++ fault.message
  | .zeroWordLength => "WORD_LENGTH must be positive"
  | .zeroMaxAttempts => "MAX_ATTEMPTS must be positive"
  | .missingRedisUrl => "LOCK_BACKEND=redis requires REDIS_URL"
  | .ttlTooShort => "LOCK_TTL_MS must be greater than LOCK_TIMEOUT_MS"

/-- Read a variable without regard to white space around its text, or take its
default. -/
def readOr (lookup : String → Option String) (key : String) (byDefault : α)
    (read : String → Except ValueFault α) : Except Fault α :=
  match lookup key with
  | none => .ok byDefault
  | some raw => (read (Text.trim raw)).mapError (.invalid key raw)

/-- Check settings against each other. -/
def check (s : Settings) : Except Fault Settings :=
  if s.wordLength = 0 then .error .zeroWordLength
  else if s.maxAttempts = 0 then .error .zeroMaxAttempts
  else if s.lockBackend = .shared ∧ s.redisUrl = none then .error .missingRedisUrl
  else if s.lockTtlMs ≤ s.lockTimeoutMs then .error .ttlTooShort
  else .ok s

/-- Read settings from named variables. -/
def ofVariables (lookup : String → Option String) : Except Fault Settings := do
  let wordLength ← readOr lookup "WORD_LENGTH" 5 (readNumber max64)
  let maxAttempts ← readOr lookup "MAX_ATTEMPTS" 6 (readNumber max32)
  let lockTimeoutMs ← readOr lookup "LOCK_TIMEOUT_MS" 3000 (readNumber max64)
  let lockBackend ← readOr lookup "LOCK_BACKEND" .inProcess readBackend
  let lockTtlMs ← readOr lookup "LOCK_TTL_MS" 30000 (readNumber max64)
  let exclusiveRowLock ← readOr lookup "EXCLUSIVE_ROW_LOCK" false readTruth
  let dictionaryCacheTtlSeconds ←
    readOr lookup "DICTIONARY_CACHE_TTL_SECONDS" 600 (readNumber max64)
  check
    { databaseUrl := (lookup "DATABASE_URL").getD "sqlite://wordle_duel.db?mode=rwc"
      wordsDirectory := (lookup "WORDS_DIRECTORY").getD "./words"
      wordLength, maxAttempts, lockTimeoutMs, lockBackend
      redisUrl := (lookup "REDIS_URL").filter fun url => !Text.isBlankText url
      lockTtlMs, exclusiveRowLock, dictionaryCacheTtlSeconds }

end Settings

end WordDuel
