import WordDuel.Lease.Holder
import WordDuel.Lock.Key
/-!
# WordDuel.Lease.Provider

**Locks as leases**: a lock is had by whoever has the lease of its key, under a name
that sets the keys of one user of the server apart from those of others. Each
function here talks to the server once and hears its answer.
-/

namespace WordDuel

/-- How locks are turned into leases. -/
structure LeaseProvider where
  /-- What the key of every lease begins with. -/
  namespaceText : String := "wordle-duel:lock:"
  /-- How long a lease lasts unless renewed, in milliseconds. -/
  ttl : Nat

/-- A server to which commands may not get through. -/
structure LeaseLink where
  server : LeaseServer
  /-- Which commands fail. -/
  broken : LeaseCommand → Bool

namespace LeaseLink

/-- Send a command. -/
def send (link : LeaseLink) (command : LeaseCommand) : LeaseLink × LeaseAnswer :=
  if link.broken command then (link, none)
  else
    let (server, effect) := link.server.run command
    ({ link with server }, some effect)

/-- Give a lease back. -/
def release (link : LeaseLink) (h : LeaseHolder) : LeaseLink × Except LockCause Unit :=
  match h.beginRelease with
  | (_, .error cause) => (link, .error cause)
  | (h, .ok command) =>
    let (link, answer) := link.send command
    (link, h.endRelease answer)

/-- Drop a lease. -/
def drop (link : LeaseLink) (h : LeaseHolder) : LeaseLink :=
  match h.drop.2 with
  | some command => (link.send command).1
  | none => link

end LeaseLink

namespace LeaseProvider

variable (p : LeaseProvider)

/-- The key of the lease for a lock. -/
def leaseKey (key : String) : String := p.namespaceText ++ key

/-- Claim a lock once: its holder, or nothing if somebody else has it. -/
def claim (link : LeaseLink) (key : String) (token : Token) :
    LeaseLink × Except LockCause (Option LeaseHolder) :=
  match link.send (.claim (p.leaseKey key) token p.ttl) with
  | (link, some true) => (link, .ok (some (.new (p.leaseKey key) token)))
  | (link, some false) => (link, .ok none)
  | (link, none) => (link, .error .unavailable)

/-- Renew a lease, unless that has been given up. -/
def renew (link : LeaseLink) (h : LeaseHolder) : LeaseLink × LeaseHolder :=
  if h.renewing then
    let (link, answer) := link.send (h.renewal p.ttl)
    (link, h.noteRenewal answer)
  else (link, h)

end LeaseProvider

end WordDuel
