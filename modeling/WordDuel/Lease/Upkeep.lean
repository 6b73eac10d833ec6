import WordDuel.Lease.Pace
import WordDuel.Lease.Provider
import WordDuel.Settings
/-!
# WordDuel.Lease.Upkeep

**One lease over time.** The lease of a key runs out by the clock of the server, unless its
holder renews it, which it attempts each time a fixed interval has passed. Commands take no time,
but an attempt may fail, be the command carried out or not. Others may send their own commands
whenever they please.

Times are in nanoseconds.
-/

namespace WordDuel

/-- The leases that serve as locks under some settings. -/
def LeaseProvider.ofSettings (settings : Settings) : LeaseProvider := { ttl := settings.lockTtlMs }

/-- What becomes of an attempt to renew a lease. -/
inductive RenewalFate
  /-- The command is carried out and answered. -/
  | answered
  /-- The command is carried out, but the answer does not come back. -/
  | unanswered
  /-- The command does not arrive. -/
  | undelivered
  deriving DecidableEq, Repr

/-- Whether the holder is told that the attempt has failed. -/
def RenewalFate.fails : RenewalFate → Bool
  | .answered => false
  | .unanswered | .undelivered => true

/-- No two attempts that fail follow each other. -/
def NoTwoFail : List RenewalFate → Prop
  | fate :: fate' :: fates => ¬ (fate.fails ∧ fate'.fails) ∧ NoTwoFail (fate' :: fates)
  | _ => True

/-- When a lease runs out after a command that had an effect on it, if it is still there. -/
def LeaseCommand.deadline? (now : Nat) : LeaseCommand → Option Nat
  | .claim _ _ ttl | .renew _ _ ttl => some (now + Pace.millisecond * ttl)
  | .free _ _ => none

/-- A server, and somebody who has got a lease from it. -/
structure Upkeep where
  server : LeaseServer
  /-- The time. -/
  now : Nat
  /-- When the lease of the holder's key runs out, if anybody has it. -/
  deadline : Option Nat
  holder : LeaseHolder
  /-- How long the holder waits between attempts to renew the lease. -/
  interval : Nat
  /-- When the next attempt is made. -/
  due : Nat

/-- What can happen next. -/
inductive UpkeepAct
  /-- Time goes by. -/
  | pass (ns : Nat)
  /-- The holder attempts to renew the lease. -/
  | renewal (fate : RenewalFate)
  /-- A command of somebody else is carried out. -/
  | other (command : LeaseCommand)

/-- What becomes of the attempt to renew the lease, if there is one. -/
def UpkeepAct.fate? : UpkeepAct → Option RenewalFate
  | .renewal fate => some fate
  | .pass _ | .other _ => none

namespace Upkeep

variable (p : LeaseProvider)

/-- Claim a lock: its holder has just got the lease, if nobody else has it. -/
def begin? (server : LeaseServer) (now : Nat) (key : String) (token : Token) : Option Upkeep :=
  match server.run (.claim (p.leaseKey key) token p.ttl) with
  | (server, true) => some
      { server, now
        deadline := some (now + Pace.millisecond * p.ttl)
        holder := .new (p.leaseKey key) token
        interval := Pace.renewInterval p.ttl
        due := now + Pace.renewInterval p.ttl }
  | (_, false) => none

variable (u : Upkeep)

/-- Time goes by, and the lease runs out if its time has come. -/
def pass (ns : Nat) : Upkeep :=
  if u.deadline.any (· ≤ u.now + ns) then
    { u with now := u.now + ns, server := u.server.expire u.holder.key, deadline := none }
  else { u with now := u.now + ns }

/-- Carry out a command; the answer says whether it had an effect. -/
def carryOut (command : LeaseCommand) : Upkeep × Bool :=
  let (server, effect) := u.server.run command
  ({ u with
      server
      deadline :=
        if effect ∧ command.key = u.holder.key then command.deadline? u.now else u.deadline },
    effect)

/-- The holder takes note of an answer, and waits for the next attempt. -/
def note (answer : LeaseAnswer) : Upkeep :=
  { u with holder := u.holder.noteRenewal answer, due := u.now + u.interval }

/-- The holder attempts to renew the lease. -/
def renew : RenewalFate → Upkeep
  | .answered =>
    let (carried, effect) := u.carryOut (u.holder.renewal p.ttl)
    carried.note (some effect)
  | .unanswered => (u.carryOut (u.holder.renewal p.ttl)).1.note none
  | .undelivered => u.note none

/-- Perform an act, if it is one of those that can be next. A holder that has not given up its
lease attempts each renewal when it is due. -/
def act? : UpkeepAct → Option Upkeep
  | .pass ns => if u.holder.renewing ∧ u.due < u.now + ns then none else some (u.pass ns)
  | .renewal fate =>
    if u.holder.renewing ∧ u.now = u.due then some (u.renew p fate) else none
  | .other command =>
    if command.token = u.holder.token then none else some (u.carryOut command).1

/-- Perform acts one after the other. -/
def run? (acts : List UpkeepAct) : Option Upkeep := acts.foldlM (act? p) u

end Upkeep

end WordDuel
