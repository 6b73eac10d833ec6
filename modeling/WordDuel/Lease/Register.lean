import WordDuel.Lease.Server
/-!
# WordDuel.Lease.Register

**What a lease server has been through.** A server with a clock keeps, beside the leases, when
each of them runs out. What happens to it is written down event by event, and its state at any
moment is what comes of the events up to then.
-/

namespace WordDuel

/-- The number of a message to the server. -/
abbrev MessageId := Nat

/-- What happens at a lease server. -/
inductive LeaseEvent
  /-- The command of a message was carried out, with or without effect. -/
  | carried (message : MessageId) (command : LeaseCommand) (effect : Bool)
  /-- The lease of a key ran out. -/
  | expired (key : String)
  /-- Some milliseconds went by. -/
  | passed (ms : Nat)
  deriving DecidableEq, Repr

/-- A lease server and its clock. -/
structure LeaseRegister where
  server : LeaseServer
  /-- The time, in milliseconds. -/
  now : Nat
  /-- When the lease of each key runs out. -/
  deadlines : SortedMap String Nat

/-- What a command that has an effect makes of the deadlines. -/
def LeaseCommand.reset (now : Nat) (deadlines : SortedMap String Nat) :
    LeaseCommand → SortedMap String Nat
  | .claim key _ ttl | .renew key _ ttl => deadlines.insert key (now + ttl)
  | .free key _ => deadlines.erase key

namespace LeaseRegister

/-- A server without leases, when its clock is started. -/
def empty : LeaseRegister := ⟨.empty, 0, .empty⟩

variable (r : LeaseRegister)

/-- Who has the lease of a key. -/
def owner? (key : String) : Option Token := r.server.owner? key

/-- What is filed under a key, and when it runs out. -/
def entry (key : String) : Option Tenure × Option Nat :=
  (r.server.tenures.get? key, r.deadlines.get? key)

/-- Carry out a command; the answer says whether it had an effect. -/
def carryOut (command : LeaseCommand) : LeaseRegister × Bool :=
  let (server, effect) := r.server.run command
  ({ r with
      server
      deadlines := if effect then command.reset r.now r.deadlines else r.deadlines }, effect)

/-- The server after an event. -/
def after : LeaseEvent → LeaseRegister
  | .carried _ command _ => (r.carryOut command).1
  | .expired key =>
    { r with server := r.server.expire key, deadlines := r.deadlines.erase key }
  | .passed ms => { r with now := r.now + ms }

/-- What comes of events, one after the other. -/
def replay (journal : List LeaseEvent) : LeaseRegister := journal.foldl after empty

/-- The server when so many of the events have happened. -/
def atMoment (journal : List LeaseEvent) (moment : Nat) : LeaseRegister :=
  replay (journal.take moment)

end LeaseRegister

end WordDuel
