import WordDuel.Lease.Provider
import WordDuel.Lock.Errand
/-!
# WordDuel.Lease.Session

**One process that uses leases as locks**, with the leases it has under names of its
own. Each claim has a fresh token. A claim in the background is repeated when its
result is asked for, unless it has come to something by then.
-/

namespace WordDuel

/-- What a process has to do with a lease server. -/
structure LeaseSession (α : Type) where
  /-- How locks are turned into leases. -/
  provider : LeaseProvider
  /-- The server. -/
  link : LeaseLink
  /-- The token of the next claim. -/
  fresh : Token
  /-- The leases that the process has, by name. -/
  holders : List (String × LeaseHolder)
  /-- The claims whose result has not been asked for, each with its key and what it has
  come to so far. -/
  pending : List (String × String × TaskResult α)

namespace LeaseSession

variable {α : Type}

/-- The token of somebody else. -/
def stranger : Token := 0

/-- A session on a server without leases that carries out every command. -/
def start (provider : LeaseProvider) : LeaseSession α :=
  { provider, link := ⟨.empty, fun _ => false⟩, fresh := stranger + 1, holders := [],
    pending := [] }

/-- Claim a lock once. -/
def claim (s : LeaseSession α) (key : String) :
    LeaseSession α × Except LockCause (Option LeaseHolder) :=
  let (link, r) := s.provider.claim s.link key s.fresh
  ({ s with link, fresh := s.fresh + 1 }, r)

/-- Forget the lease of a name. -/
def forget (s : LeaseSession α) (name : String) : LeaseSession α :=
  { s with holders := s.holders.filter fun p => p.1 ≠ name }

/-- Drop the lease of a name, if there is one. -/
def drop? (s : LeaseSession α) (name : String) : Option (LeaseSession α) :=
  (s.holders.lookup name).map fun h => { s.forget name with link := s.link.drop h }

/-- Give the lease of a name back, if there is one. -/
def release? (s : LeaseSession α) (name : String) :
    Option (LeaseSession α × Except LockCause Unit) :=
  (s.holders.lookup name).map fun h =>
    let (link, r) := s.link.release h
    ({ s.forget name with link }, r)

/-- Claim a lock and keep it under a name, in the place of what was kept there. -/
def keep (s : LeaseSession α) (name key : String) : LeaseSession α × TaskResult α :=
  match s.claim key with
  | (s, .ok (some h)) =>
    let s := (s.drop? name).getD s
    ({ s with holders := (name, h) :: s.holders }, .acquired key)
  | (s, .ok none) => (s, .late)
  | (s, .error cause) => (s, .answered 0 (.error (.lock cause)))

/-- Go through visits from outside in, and give the leases back from inside out. -/
def visit (s : LeaseSession α) (ending : Ending α) (depth : Nat) :
    List Visit → LeaseSession α × TaskResult α
  | [] => (s, ending.result (depth - 1))
  | v :: vs =>
    match s.claim (roomLockKey v.room) with
    | (s, .ok (some h)) =>
      match visit s ending (depth + 1) vs with
      -- Nobody is left to hear the answer, so the lease is dropped.
      | (s, .crashed) => ({ s with link := s.link.drop h }, .crashed)
      | (s, r) => ({ s with link := (s.link.release h).1 }, r)
    | (s, .ok none) => (s, .answered depth (.error (.refused (.roomBusy v.room))))
    | (s, .error cause) => (s, .answered depth (.error (.lock cause)))

/-- Do what a task wants, waiting for nothing. -/
def perform (s : LeaseSession α) (name : String) : Aim α → LeaseSession α × TaskResult α
  | .keep key _ => s.keep name key
  | .errand first inner ending => s.visit ending 0 (first :: inner)

/-- Claim a lock in the background. -/
def spawn (s : LeaseSession α) (name key : String) : LeaseSession α :=
  let (s, r) := s.keep name key
  { s with pending := (name, key, r) :: s.pending }

/-- What a claim in the background comes to, if there is one of this name. -/
def await? (s : LeaseSession α) (name : String) : Option (LeaseSession α × TaskResult α) :=
  (s.pending.lookup name).map fun (key, r) =>
    let s := { s with pending := s.pending.filter fun p => p.1 ≠ name }
    match r with
    | .late => s.keep name key
    | r => (s, r)

/-- Renew every lease once. -/
def renewAll (s : LeaseSession α) : LeaseSession α :=
  s.holders.foldr
    (fun (name, h) s =>
      let (link, h) := s.provider.renew s.link h
      { s with link, holders := (name, h) :: s.holders })
    { s with holders := [] }

end LeaseSession

end WordDuel
