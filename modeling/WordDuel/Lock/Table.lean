import WordDuel.SortedMap
/-!
# WordDuel.Lock.Table

**Locks within one process.** A table files one mutex per key, made when the key is
first asked for. A user takes the mutex that is filed when it arrives, waits until
the mutex is free, holds it, lets go of it, and last prunes the table: the mutex is
dropped unless some other user refers to it.

Each function here is one atomic act of one user, and users may act in any order;
`LockTable.act?` performs any of them, and refuses an act that is not the user's
next one.
-/

namespace WordDuel

/-- One call that wants a lock, from its arrival until it is through. -/
abbrev LockUser := Nat

/-- A mutex. -/
abbrev MutexId := Nat

/-- How a user stands to the lock of a key. -/
inductive LockUse
  /-- It waits for a mutex. -/
  | waiting (key : String) (mutex : MutexId)
  /-- It has the mutex. -/
  | holding (key : String) (mutex : MutexId)
  /-- It has let go of the mutex and has yet to prune the table. -/
  | leaving (key : String)
  deriving DecidableEq, Repr

namespace LockUse

/-- The key that the user asked for. -/
def key : LockUse → String
  | .waiting key _ | .holding key _ | .leaving key => key

/-- The mutex that the user refers to. -/
def mutex? : LockUse → Option MutexId
  | .waiting _ mutex | .holding _ mutex => some mutex
  | .leaving _ => none

/-- The mutex that the user waits for. -/
def awaited? : LockUse → Option MutexId
  | .waiting _ mutex => some mutex
  | _ => none

/-- The mutex that the user has. -/
def held? : LockUse → Option MutexId
  | .holding _ mutex => some mutex
  | _ => none

end LockUse

/-- The mutexes filed by key, and everybody who uses them. -/
structure LockTable where
  /-- The mutex of each key. -/
  entries : SortedMap String MutexId
  /-- The users, in order of arrival. -/
  uses : List (LockUser × LockUse)
  /-- The number of mutexes made so far, which is the next one's name. -/
  made : Nat

/-- What a user can do in one step. -/
inductive LockAct
  /-- Take a reference to the mutex of a key. -/
  | arrive (user : LockUser) (key : String)
  /-- Get the mutex, which is free. -/
  | obtain (user : LockUser)
  /-- Let go of the mutex, be it held or only waited for. -/
  | letGo (user : LockUser)
  /-- Drop the entry of the key if nobody refers to its mutex. -/
  | prune (user : LockUser)
  /-- Stop waiting, and do nothing more. -/
  | vanish (user : LockUser)
  deriving DecidableEq, Repr

namespace LockTable

/-- A table without entries or users. -/
def empty : LockTable := ⟨.empty, [], 0⟩

/-! ### Looking -/

/-- The number of entries. -/
def registered (t : LockTable) : Nat := t.entries.size

/-- How a user stands. -/
def use? (t : LockTable) (user : LockUser) : Option LockUse := t.uses.lookup user

/-- Whether somebody refers to a mutex. -/
def isReferenced (t : LockTable) (mutex : MutexId) : Bool :=
  t.uses.any fun p => p.2.mutex? = some mutex

/-- Whether nobody has a mutex. -/
def isFree (t : LockTable) (mutex : MutexId) : Bool :=
  t.uses.all fun p => p.2.held? ≠ some mutex

/-- Who has waited longest for a mutex. -/
def firstWaiter? (t : LockTable) (mutex : MutexId) : Option LockUser :=
  (t.uses.find? fun p => p.2.awaited? = some mutex).map Prod.fst

/-- Whether a user waits for a mutex that is free, and is the first to do so. -/
def isNext (t : LockTable) (user : LockUser) : Bool :=
  ((t.use? user).bind LockUse.awaited?).any fun mutex =>
    t.isFree mutex && t.firstWaiter? mutex == some user

/-! ### Acts -/

/-- Let a user stand otherwise, in its old place. -/
def turn (t : LockTable) (user : LockUser) (use : LockUse) : LockTable :=
  { t with uses := t.uses.map fun p => if p.1 = user then (user, use) else p }

/-- Forget a user. -/
def forget (t : LockTable) (user : LockUser) : LockTable :=
  { t with uses := t.uses.filter fun p => p.1 ≠ user }

/-- The mutex of a key, made if there is none. -/
def mutexOf (t : LockTable) (key : String) : MutexId × LockTable :=
  match t.entries.get? key with
  | some mutex => (mutex, t)
  | none => (t.made, { t with entries := t.entries.insert key t.made, made := t.made + 1 })

/-- A new user takes a reference to the mutex of a key. -/
def arrive? (t : LockTable) (user : LockUser) (key : String) : Option LockTable :=
  if (t.use? user).isSome then none
  else
    let (mutex, t) := t.mutexOf key
    some { t with uses := t.uses ++ [(user, .waiting key mutex)] }

/-- A user gets the free mutex that it waits for. -/
def obtain? (t : LockTable) (user : LockUser) : Option LockTable :=
  match t.use? user with
  | some (.waiting key mutex) =>
    if t.isFree mutex then some (t.turn user (.holding key mutex)) else none
  | _ => none

/-- A user lets go of the mutex that it has or waits for. -/
def letGo? (t : LockTable) (user : LockUser) : Option LockTable :=
  match t.use? user with
  | some (.waiting key _) | some (.holding key _) => some (t.turn user (.leaving key))
  | _ => none

/-- Drop the entry of a key unless somebody refers to its mutex. -/
def pruneKey (t : LockTable) (key : String) : LockTable :=
  match t.entries.get? key with
  | some mutex => if t.isReferenced mutex then t else { t with entries := t.entries.erase key }
  | none => t

/-- A user that has let go prunes the table, and is through. -/
def prune? (t : LockTable) (user : LockUser) : Option LockTable :=
  match t.use? user with
  | some (.leaving key) => some ((t.forget user).pruneKey key)
  | _ => none

/-- A user that waits is gone without a trace. -/
def vanish? (t : LockTable) (user : LockUser) : Option LockTable :=
  match t.use? user with
  | some (.waiting _ _) => some (t.forget user)
  | _ => none

/-- Perform an act, if it is one of those that the user can do next. -/
def act? (t : LockTable) : LockAct → Option LockTable
  | .arrive user key => t.arrive? user key
  | .obtain user => t.obtain? user
  | .letGo user => t.letGo? user
  | .prune user => t.prune? user
  | .vanish user => t.vanish? user

/-- Perform acts one after the other. -/
def run? (t : LockTable) (acts : List LockAct) : Option LockTable := acts.foldlM act? t

/-- Let go and prune without being disturbed. -/
def leave? (t : LockTable) (user : LockUser) : Option LockTable :=
  (t.letGo? user).bind fun t => t.prune? user

end LockTable

end WordDuel
