/-!
# WordDuel.Lease.Network

**The way to the lease server.** A lease server is reached over a network, and there
may be none.
-/

namespace WordDuel

/-- Whether there is a network. -/
inductive Network
  /-- The lease server can be reached. -/
  | reachable
  /-- Nothing outside can be reached. -/
  | unreachable
  deriving DecidableEq, Repr

/-- Why the lease server cannot be reached. -/
inductive NetworkFault
  /-- There is no network. -/
  | unreachable
  deriving DecidableEq, Repr

/-- The wording of a fault. -/
def NetworkFault.message : NetworkFault → String
  | .unreachable => "Network is unreachable (os error 101)"

/-- The contexts of a fault and its root: the client repeats what the system says. -/
def NetworkFault.chain (fault : NetworkFault) : List String := [fault.message, fault.message]

/-- Connect to the lease server. -/
def Network.connect : Network → Except NetworkFault Unit
  | .reachable => .ok ()
  | .unreachable => .error .unreachable

end WordDuel
