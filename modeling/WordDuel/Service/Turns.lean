import WordDuel.Service.Request
/-!
# WordDuel.Service.Turns

**In which order requests are served that are made together.** A request that needs a
lock waits until it has it, first come, first served. With some stores it then waits in
line, behind all who came before it, until it has the store for itself; a request that
needs no lock is in that line from the beginning.
-/

namespace WordDuel

/-- The lock that a request needs. -/
def Request.lock? : Request → Option RoomId
  | .change room _ => some room
  | .create _ _ _ | .get _ _ => none

/-- Requests that have not been served yet. -/
structure Line (α : Type) where
  /-- Those that wait for the store. -/
  ready : List α
  /-- Those that wait for a lock. -/
  blocked : List α

namespace Line

variable {α κ : Type} [DecidableEq κ] (lock? : α → Option κ)

/-- Whether two requests need the same lock. -/
def clash (a b : α) : Bool := (lock? a).isSome && lock? a == lock? b

/-- A request is made. Whoever is in line has the lock that it needs. -/
def arrive (line : Line α) (a : α) : Line α :=
  if line.ready.any (clash lock? a) then { line with blocked := line.blocked ++ [a] }
  else { line with ready := line.ready ++ [a] }

/-- The requests in the order in which they are served. Whoever waits for the lock of one
that has been served joins the line. -/
def turns (line : Line α) : List α :=
  match line with
  | ⟨[], _⟩ => []
  | ⟨a :: ready, blocked⟩ =>
    match _h : blocked.find? (clash lock? a) with
    | some b => a :: turns ⟨ready ++ [b], blocked.eraseP (clash lock? a)⟩
    | none => a :: turns ⟨ready, blocked⟩
termination_by line.ready.length + line.blocked.length
decreasing_by
  · have hlen := List.length_eraseP_of_mem (List.mem_of_find?_eq_some _h) (List.find?_some _h)
    have hpos := List.length_pos_of_mem (List.mem_of_find?_eq_some _h)
    simp only [List.length_append, List.length_cons, List.length_nil]
    omega
  · simp only [List.length_cons]
    omega

end Line

/-- Requests that are made together, in the order in which a service serves them. -/
def Service.turns (service : Service σ) (lock? : α → Option RoomId) (calls : List α) : List α :=
  if service.store.inLine then (calls.foldl (Line.arrive lock?) ⟨[], []⟩).turns lock? else calls

end WordDuel
