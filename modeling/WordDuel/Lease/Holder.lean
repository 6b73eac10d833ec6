import WordDuel.Failure
import WordDuel.Lease.Server
/-!
# WordDuel.Lease.Holder

**The holder of a lease**, from the claim that succeeded to the end. Until it is
given back, a lease is renewed from time to time; a renewal without effect tells the
holder that the lease is lost. Giving a lease back takes two stages: the holder
counts as done with it, and then the command is sent and answered. A holder that is
dropped before the first of these has the lease freed without waiting for the
answer; one that is dropped after it does nothing more.
-/

namespace WordDuel

/-- What comes back from the server: whether a command had an effect, or nothing if
the command failed. -/
abbrev LeaseAnswer := Option Bool

/-- The holder of a lease. -/
structure LeaseHolder where
  /-- The key on the server. -/
  key : String
  /-- The token that is filed. -/
  token : Token
  /-- Whether the lease is still being renewed. -/
  renewing : Bool
  /-- Whether the lease was found lost. -/
  lapsed : Bool
  /-- Whether the holder has begun to give the lease back. -/
  released : Bool
  deriving DecidableEq, Repr

namespace LeaseHolder

/-- The holder of a lease just claimed. -/
def new (key : String) (token : Token) : LeaseHolder :=
  { key, token, renewing := true, lapsed := false, released := false }

/-- The command that renews the lease. -/
def renewal (h : LeaseHolder) (ttl : Nat) : LeaseCommand := .renew h.key h.token ttl

/-- The command that ends the lease. -/
def freeing (h : LeaseHolder) : LeaseCommand := .free h.key h.token

/-- Take note of the answer to a renewal. A failed one is simply tried again. -/
def noteRenewal (h : LeaseHolder) : LeaseAnswer → LeaseHolder
  | some true | none => h
  | some false => { h with renewing := false, lapsed := true }

/-- Begin to give the lease back: the command to send, unless the lease is known to
be lost. -/
def beginRelease (h : LeaseHolder) : LeaseHolder × Except LockCause LeaseCommand :=
  ({ h with renewing := false, released := true },
    if h.lapsed then .error (.lost h.key) else .ok h.freeing)

/-- What giving the lease back comes to, by the answer. -/
def endRelease (h : LeaseHolder) : LeaseAnswer → Except LockCause Unit
  | some true => .ok ()
  | some false => .error (.expired h.key)
  | none => .error .unavailable

/-- Drop the holder: the command that is sent without waiting for the answer. -/
def drop (h : LeaseHolder) : LeaseHolder × Option LeaseCommand :=
  ({ h with renewing := false }, if h.released then none else some h.freeing)

end LeaseHolder

end WordDuel
