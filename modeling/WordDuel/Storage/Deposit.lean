import WordDuel.Storage.Store
/-!
# WordDuel.Storage.Deposit

**Calls that store duels**, one after the other. A call that fails leaves a store as it was.
What is stored within a unit of work depends on what the unit has loaded, which need not be
what the store holds by then.
-/

namespace WordDuel

/-- A call that stores a duel. -/
inductive Deposit
  /-- The duel of a new room is stored. -/
  | insert (duel : Duel)
  /-- A duel is stored within a unit of work. -/
  | commit (u : UnitOfWork) (duel : Duel)

namespace Store

/-- What a store holds after a call. -/
def deposit (store : Store σ) (s : σ) : Deposit → σ
  | .insert duel => (store.insert s duel).toOption.getD s
  | .commit u duel => (store.commit s u duel).toOption.getD s

/-- What a store holds after some calls. -/
def deposits (store : Store σ) (s : σ) (calls : List Deposit) : σ := calls.foldl store.deposit s

/-- Load some number of times within a unit of work. -/
def loadsIn (store : Store σ) (s : σ) (u : UnitOfWork) : Nat → Result UnitOfWork
  | 0 => .ok u
  | n + 1 =>
    match store.loadIn s u with
    | .ok (_, u) => store.loadsIn s u n
    | .error failure => .error failure

/-- Store a duel within a unit of work that is opened for a room and loads some number of times
before. -/
def rewrite (store : Store σ) (s : σ) (room : RoomId) (exclusive : Bool) (loads : Nat)
    (duel : Duel) : Result σ := do
  let u ← store.openUnit s room exclusive
  let u ← store.loadsIn s u loads
  store.commit s u duel

end Store

end WordDuel
