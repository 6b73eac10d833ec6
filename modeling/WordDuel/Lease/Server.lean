import WordDuel.SortedMap
/-!
# WordDuel.Lease.Server

**A server that files leases**: under a key, the token of whoever has the lease and
how long it lasts. Each command is carried out in one piece. Only claiming a key that
is free files a token; renewing and freeing have an effect only under the token that
is filed. A lease may also expire, at any time.
-/

namespace WordDuel

/-- The secret of one attempt to get a lease. Tokens are compared and nothing else. -/
abbrev Token := Nat

/-- A lease as it is filed. -/
structure Tenure where
  /-- Who has it. -/
  token : Token
  /-- How long it was last said to last, in milliseconds. -/
  ttl : Nat
  deriving DecidableEq, Repr

/-- A server's leases by key. -/
structure LeaseServer where
  /-- What is filed under each key. -/
  tenures : SortedMap String Tenure

/-- What the server is asked to do. -/
inductive LeaseCommand
  /-- File a token under a key that is free. -/
  | claim (key : String) (token : Token) (ttl : Nat)
  /-- Let the lease of a token last anew. -/
  | renew (key : String) (token : Token) (ttl : Nat)
  /-- End the lease of a token. -/
  | free (key : String) (token : Token)
  deriving DecidableEq, Repr

namespace LeaseCommand

/-- The key that a command is about. -/
def key : LeaseCommand → String
  | .claim key _ _ | .renew key _ _ | .free key _ => key

/-- The token on whose behalf a command is sent. -/
def token : LeaseCommand → Token
  | .claim _ token _ | .renew _ token _ | .free _ token => token

end LeaseCommand

namespace LeaseServer

/-- A server without leases. -/
def empty : LeaseServer := ⟨.empty⟩

/-- Who has the lease of a key. -/
def owner? (s : LeaseServer) (key : String) : Option Token :=
  (s.tenures.get? key).map Tenure.token

/-- File a lease under a key, whatever is there. -/
def file (s : LeaseServer) (key : String) (tenure : Tenure) : LeaseServer :=
  ⟨s.tenures.insert key tenure⟩

/-- A lease has ended. -/
def expire (s : LeaseServer) (key : String) : LeaseServer := ⟨s.tenures.erase key⟩

/-- Carry out a command; the answer says whether it had an effect. -/
def run (s : LeaseServer) : LeaseCommand → LeaseServer × Bool
  | .claim key token ttl =>
    if s.owner? key = none then (s.file key ⟨token, ttl⟩, true) else (s, false)
  | .renew key token ttl =>
    if s.owner? key = some token then (s.file key ⟨token, ttl⟩, true) else (s, false)
  | .free key token =>
    if s.owner? key = some token then (s.expire key, true) else (s, false)

/-! ### Who owns what afterwards -/

theorem owner?_file (s : LeaseServer) (key key' : String) (tenure : Tenure) :
    (s.file key tenure).owner? key' = if key' = key then some tenure.token else s.owner? key' := by
  unfold file owner?
  by_cases h : key' = key
  · subst h
    simp
  · simp [SortedMap.get?_insert_of_ne, h]

theorem owner?_expire (s : LeaseServer) (key key' : String) :
    (s.expire key).owner? key' = if key' = key then none else s.owner? key' := by
  unfold expire owner?
  by_cases h : key' = key
  · subst h
    simp
  · simp [SortedMap.get?_erase_of_ne, h]

end LeaseServer

end WordDuel
