import WordDuel.Settings
/-!
# WordDuel.Settings.Variable

**What variables say of settings**, and how settings are written as variables. Of the ten variables
three are taken as they stand. The other seven are read: each is of one of three kinds, and the
kind determines which texts say what (`Kind.Means`). Settings follow from the variables
(`StatedBy`), and are accepted if they keep to four rules (`Rule.Holds`).

There are many ways to write the same settings: each of the seven variables may have white space
around its text, and a number may have leading zeros (`Layout`).
-/

namespace WordDuel

namespace Settings

/-! ### Kinds of variables -/

/-- What the text of a variable is read as. -/
inductive Kind
  /-- A number of at most `bound`. -/
  | number (bound : Nat)
  /-- A truth value. -/
  | truth
  /-- A way to lock rooms. -/
  | backend
  deriving DecidableEq

namespace Kind

/-- The values of a kind. -/
abbrev Value : Kind → Type
  | number _ => Nat
  | truth => Bool
  | backend => LockBackend

/-- Read a value of a kind. -/
def read : (k : Kind) → String → Except ValueFault k.Value
  | number bound => readNumber bound
  | truth => readTruth
  | backend => readBackend

/-- The name of a truth value. -/
def truthName (b : Bool) : String := if b then "true" else "false"

/-- Whether a text is a name in small letters, or the same with some of them replaced by
capitals. -/
def Spells : (text name : List Char) → Prop
  | [], [] => True
  | c :: text, d :: name => (c = d ∨ c = d.toUpper) ∧ Spells text name
  | _, _ => False

/-- What a text without white space around it means. -/
def Means : (k : Kind) → String → k.Value → Prop
  | number bound, text, n => Decimal.Denotes text.toList n ∧ n ≤ bound
  | truth, text, b => text = truthName b
  | backend, text, b => Spells text.toList b.name.toList

/-- Whether a value is within the bounds of its kind. -/
def Fits : (k : Kind) → k.Value → Prop
  | number bound, n => n ≤ bound
  | truth, _ => True
  | backend, _ => True

instance decidableFits : (k : Kind) → (a : k.Value) → Decidable (k.Fits a)
  | number bound, n => inferInstanceAs (Decidable (n ≤ bound))
  | truth, _ => .isTrue trivial
  | backend, _ => .isTrue trivial

/-- A value as a text, a number with as many leading zeros as asked for. -/
def write : (k : Kind) → (zeros : Nat) → k.Value → List Char
  | number _, zeros, n => List.replicate zeros '0' ++ Decimal.digits n
  | truth, _, b => (truthName b).toList
  | backend, _, b => b.name.toList

end Kind

/-! ### Variables that are read -/

/-- A variable that is read. -/
inductive Variable
  | wordLength
  | maxAttempts
  | lockTimeoutMs
  | lockBackend
  | lockTtlMs
  | exclusiveRowLock
  | dictionaryCacheTtlSeconds
  deriving DecidableEq, Repr

namespace Variable

/-- The variables in the order in which they are read. -/
def inOrder : List Variable :=
  [wordLength, maxAttempts, lockTimeoutMs, lockBackend, lockTtlMs, exclusiveRowLock,
    dictionaryCacheTtlSeconds]

/-- The name of a variable. -/
def key : Variable → String
  | wordLength => "WORD_LENGTH"
  | maxAttempts => "MAX_ATTEMPTS"
  | lockTimeoutMs => "LOCK_TIMEOUT_MS"
  | lockBackend => "LOCK_BACKEND"
  | lockTtlMs => "LOCK_TTL_MS"
  | exclusiveRowLock => "EXCLUSIVE_ROW_LOCK"
  | dictionaryCacheTtlSeconds => "DICTIONARY_CACHE_TTL_SECONDS"

/-- What a variable is read as. -/
abbrev kind : Variable → Kind
  | wordLength => .number max64
  | maxAttempts => .number max32
  | lockTimeoutMs => .number max64
  | lockBackend => .backend
  | lockTtlMs => .number max64
  | exclusiveRowLock => .truth
  | dictionaryCacheTtlSeconds => .number max64

/-- The value of a variable that is not set. -/
def byDefault : (v : Variable) → v.kind.Value
  | wordLength => 5
  | maxAttempts => 6
  | lockTimeoutMs => 3000
  | lockBackend => .inProcess
  | lockTtlMs => 30000
  | exclusiveRowLock => false
  | dictionaryCacheTtlSeconds => 600

/-- What settings have for a variable. -/
def get : (v : Variable) → Settings → v.kind.Value
  | wordLength, s => s.wordLength
  | maxAttempts, s => s.maxAttempts
  | lockTimeoutMs, s => s.lockTimeoutMs
  | lockBackend, s => s.lockBackend
  | lockTtlMs, s => s.lockTtlMs
  | exclusiveRowLock, s => s.exclusiveRowLock
  | dictionaryCacheTtlSeconds, s => s.dictionaryCacheTtlSeconds

/-- Read a variable. -/
def readFrom (lookup : String → Option String) (v : Variable) : Except Fault v.kind.Value :=
  readOr lookup v.key v.byDefault v.kind.read

/-- What a variable says: its default if it is not set, and else what its text means without the
white space around it. -/
def Says (lookup : String → Option String) (v : Variable) (a : v.kind.Value) : Prop :=
  match lookup v.key with
  | none => a = v.byDefault
  | some raw => v.kind.Means (Text.trim raw) a

/-- Whether a variable says anything. -/
def IsLegible (lookup : String → Option String) (v : Variable) : Prop := ∃ a, v.Says lookup a

end Variable

/-! ### All settings -/

/-- Settings as the variables state them. -/
structure StatedBy (lookup : String → Option String) (s : Settings) : Prop where
  databaseUrl : s.databaseUrl = (lookup "DATABASE_URL").getD "sqlite://wordle_duel.db?mode=rwc"
  wordsDirectory : s.wordsDirectory = (lookup "WORDS_DIRECTORY").getD "./words"
  /-- An address that is blank is none. -/
  redisUrl : ∀ url : String, s.redisUrl = some url ↔
    lookup "REDIS_URL" = some url ∧ ∃ c ∈ url.toList, Text.isBlank c = false
  value : ∀ v : Variable, v.Says lookup (v.get s)

/-- What settings that are accepted keep to. -/
inductive Rule
  /-- Targets have letters. -/
  | wordLength
  /-- Players have guesses. -/
  | maxAttempts
  /-- If locks are to be shared, something says where. -/
  | redisUrl
  /-- A shared lock lasts longer than anybody waits for it. -/
  | lockTtl
  deriving DecidableEq, Repr

namespace Rule

/-- The rules in the order in which they are checked. -/
def inOrder : List Rule := [wordLength, maxAttempts, redisUrl, lockTtl]

/-- Whether settings keep to a rule. -/
def Holds (s : Settings) : Rule → Prop
  | wordLength => 0 < s.wordLength
  | maxAttempts => 0 < s.maxAttempts
  | redisUrl => s.lockBackend = .shared → s.redisUrl ≠ none
  | lockTtl => s.lockTimeoutMs < s.lockTtlMs

instance decidableHolds (s : Settings) : DecidablePred (Holds s)
  | wordLength => inferInstanceAs (Decidable (0 < s.wordLength))
  | maxAttempts => inferInstanceAs (Decidable (0 < s.maxAttempts))
  | redisUrl => inferInstanceAs (Decidable (s.lockBackend = .shared → s.redisUrl ≠ none))
  | lockTtl => inferInstanceAs (Decidable (s.lockTimeoutMs < s.lockTtlMs))

/-- How settings that break a rule are refused. -/
def fault : Rule → Fault
  | wordLength => .zeroWordLength
  | maxAttempts => .zeroMaxAttempts
  | redisUrl => .missingRedisUrl
  | lockTtl => .ttlTooShort

/-- The variables that a rule is about. -/
def keys : Rule → List String
  | wordLength => ["WORD_LENGTH"]
  | maxAttempts => ["MAX_ATTEMPTS"]
  | redisUrl => ["LOCK_BACKEND", "REDIS_URL"]
  | lockTtl => ["LOCK_TTL_MS", "LOCK_TIMEOUT_MS"]

end Rule

/-! ### Writing settings -/

/-- How the text of a variable is laid out. -/
structure Layout where
  /-- The white space before the value. -/
  before : List Char := []
  /-- The number of leading zeros of a number. -/
  zeros : Nat := 0
  /-- The white space after the value. -/
  after : List Char := []
  isBlank_before : before.all Text.isBlank := by decide
  isBlank_after : after.all Text.isBlank := by decide

/-- A value as the text of a variable. -/
def Layout.write (l : Layout) (k : Kind) (a : k.Value) : String :=
  String.ofList (l.before ++ (k.write l.zeros a ++ l.after))

/-- Settings as variables, each of those that are read being laid out in a way of its own. -/
def toVariables (s : Settings) (layout : Variable → Layout) (key : String) : Option String :=
  if key = "DATABASE_URL" then some s.databaseUrl
  else if key = "WORDS_DIRECTORY" then some s.wordsDirectory
  else if key = "REDIS_URL" then s.redisUrl
  else (Variable.inOrder.find? (·.key = key)).map fun v => (layout v).write v.kind (v.get s)

/-- Whether settings can be written: numbers are within their bounds, and an address of the lock
server is not blank. -/
structure Writable (s : Settings) : Prop where
  fits : ∀ v : Variable, v.kind.Fits (v.get s)
  redisUrl : ∀ url : String, s.redisUrl = some url → ∃ c ∈ url.toList, Text.isBlank c = false

end Settings

end WordDuel
