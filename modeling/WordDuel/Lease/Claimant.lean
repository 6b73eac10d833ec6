import WordDuel.Lease.Provider
import WordDuel.Lease.Register
/-!
# WordDuel.Lease.Claimant

**A lock as a lease, step by step.** A claimant claims the lease of a key until it gets it or
gives up, holds it, and gives it back or drops it. Once it has the lease, a renewer works beside
it, which is told to stop when the lease is no longer needed, and stops some time after.

`Claimant.act?` performs one step of the claimant or of its renewer and says which command is sent
in that step, if any. Whatever happens between two steps is left open. An answer that is heard is
the one that was given, but it may also fail to come, be the command carried out or not.
-/

namespace WordDuel

/-- How far a claimant has come. -/
inductive ClaimantPhase
  /-- It is about to claim the lease. -/
  | claiming
  /-- It waits for the answer to a claim. -/
  | asking (message : MessageId)
  /-- Somebody else has the lease. -/
  | refused
  /-- It has come away without the lease: its time is up, unless there is another cause. -/
  | turnedAway (cause : Option LockCause)
  /-- It has the lease, as far as it knows. -/
  | holding
  /-- It is about to give the lease back. -/
  | leaving (command : LeaseCommand)
  /-- It waits for the answer to that. -/
  | returning (message : MessageId)
  /-- It has been told what has come of that. -/
  | released (result : Except LockCause Unit)
  /-- It has been dropped, and a command is about to be sent in the background. -/
  | dropped (command : LeaseCommand)
  /-- It has been dropped, and nothing is left to be done. -/
  | gone

/-- What the renewer of a claimant is doing. -/
inductive Renewer
  /-- There is none yet. -/
  | absent
  /-- It waits until the next renewal is due. -/
  | resting
  /-- It waits for the answer to a renewal. -/
  | asking (message : MessageId)
  | stopped
  deriving DecidableEq, Repr

/-- One attempt to get a lock, and what follows. -/
structure Claimant where
  /-- How locks are turned into leases. -/
  provider : LeaseProvider
  /-- The lease that it is after, as it is from the time it is had. -/
  lease : LeaseHolder
  phase : ClaimantPhase
  renewer : Renewer

/-- What a claimant or its renewer can do in one step. -/
inductive ClaimantAct
  /-- Send the command that is due. -/
  | send
  /-- Hear the answer, or that there is none. -/
  | hear (answer : LeaseAnswer)
  /-- Go on after a pause. -/
  | retry
  /-- Give up because the time is up. -/
  | giveUp
  /-- Begin to give the lease back. -/
  | release
  /-- Be dropped, by a panic or a cancellation. -/
  | drop
  /-- Send a renewal. -/
  | renew
  /-- Hear the answer to a renewal, or that there is none. -/
  | hearRenewal (answer : LeaseAnswer)
  /-- Stop the renewer that has been told to. -/
  | halt
  deriving DecidableEq, Repr

namespace Claimant

/-- Somebody who has just begun to ask for a lock. -/
def new (provider : LeaseProvider) (key : String) (token : Token) : Claimant where
  provider
  lease := .new (provider.leaseKey key) token
  phase := .claiming
  renewer := .absent

variable (c : Claimant)

/-- The command that claims the lease. -/
def claim : LeaseCommand := .claim c.lease.key c.lease.token c.provider.ttl

/-- Send the command that is due, in a message. -/
def send? (message : MessageId) : Option (Claimant × LeaseCommand) :=
  match c.phase with
  | .claiming => some ({ c with phase := .asking message }, c.claim)
  | .leaving command => some ({ c with phase := .returning message }, command)
  | .dropped command => some ({ c with phase := .gone }, command)
  | _ => none

/-- Hear an answer. -/
def hear? (given? : MessageId → Option Bool) (answer : LeaseAnswer) : Option Claimant :=
  match c.phase with
  | .asking message =>
    match answer with
    | none => some { c with phase := .turnedAway (some .unavailable) }
    | some effect =>
      if given? message ≠ some effect then none
      else if effect then some { c with phase := .holding, renewer := .resting }
      else some { c with phase := .refused }
  | .returning message =>
    if answer = none ∨ given? message = answer then
      some { c with phase := .released (c.lease.endRelease answer) }
    else none
  | _ => none

/-- Begin to give the lease back. -/
def release? : Option Claimant :=
  match c.phase with
  | .holding =>
    match c.lease.beginRelease with
    | (lease, .ok command) => some { c with lease, phase := .leaving command }
    | (lease, .error cause) => some { c with lease, phase := .released (.error cause) }
  | _ => none

/-- Be dropped: before the lease is had there is nothing to free. -/
def drop? : Option Claimant :=
  match c.phase with
  | .claiming | .asking _ | .refused => some { c with phase := .gone }
  | .holding | .leaving _ | .returning _ =>
    match c.lease.drop with
    | (lease, some command) => some { c with lease, phase := .dropped command }
    | (lease, none) => some { c with lease, phase := .gone }
  | _ => none

/-- Hear the answer to a renewal. -/
def hearRenewal? (given? : MessageId → Option Bool) (answer : LeaseAnswer) : Option Claimant :=
  match c.renewer with
  | .asking message =>
    if answer = none ∨ given? message = answer then
      some { c with
        lease := c.lease.noteRenewal answer
        renewer := if answer = some false then .stopped else .resting }
    else none
  | _ => none

/-- Perform a step, if it is one that can be next: the claimant after it, and the command that
is sent, in the next message. -/
def act? (next : MessageId) (given? : MessageId → Option Bool) :
    ClaimantAct → Option (Claimant × Option LeaseCommand)
  | .send => (c.send? next).map fun (c, command) => (c, some command)
  | .hear answer => (c.hear? given? answer).map (·, none)
  | .retry =>
    match c.phase with
    | .refused => some ({ c with phase := .claiming }, none)
    | _ => none
  | .giveUp =>
    match c.phase with
    | .refused => some ({ c with phase := .turnedAway none }, none)
    | _ => none
  | .release => c.release?.map (·, none)
  | .drop => c.drop?.map (·, none)
  | .renew =>
    match c.renewer with
    | .resting =>
      some ({ c with renewer := .asking next }, some (c.lease.renewal c.provider.ttl))
    | _ => none
  | .hearRenewal answer => (c.hearRenewal? given? answer).map (·, none)
  | .halt => if c.lease.renewing then none else some ({ c with renewer := .stopped }, none)

end Claimant

end WordDuel
