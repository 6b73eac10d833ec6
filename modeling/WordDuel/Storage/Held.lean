import WordDuel.Number.Double
import WordDuel.Storage.DatabaseError
import WordDuel.Uuid
/-!
# WordDuel.Storage.Held

**What a column holds.** A column has a type, but the database does not insist on it:
whoever edits a table by hand can leave something there that is not in the form in which
a value of that type is stored. It may still read as one; otherwise to read it is an
error of the database.
-/

namespace WordDuel

/-- What is stored in a column that somebody has edited. -/
inductive Stored
  /-- A whole number. -/
  | int (n : Int)
  /-- A real number. -/
  | real (x : Double)
  | text (s : String)
  deriving DecidableEq

/-- The content of a column of some type. -/
inductive Held (α : Type)
  /-- A value in the form in which values of the type are stored. -/
  | value (a : α)
  /-- Something else that reads as a value. -/
  | respelt (cell : Stored) (a : α)
  /-- Something else that cannot be read; what the database says of it. -/
  | unreadable (cell : Stored) (said : String)
  deriving DecidableEq

/-- The order of what is stored: numbers before texts. -/
def Stored.order : Stored → Stored → Ordering
  | .text a, .text b => compare a b
  | .text _, _ => .gt
  | _, .text _ => .lt
  | _, _ => .eq

namespace Held

/-- Read a column. -/
def read : Held α → Except DatabaseError α
  | .value a | .respelt _ a => .ok a
  | .unreadable _ said => .error (.query said)

/-- Put values in another form. -/
def map (f : α → β) : Held α → Held β
  | .value a => .value (f a)
  | .respelt cell a => .respelt cell (f a)
  | .unreadable cell said => .unreadable cell said

@[simp] theorem read_value (a : α) : (value a).read = .ok a := rfl

/-- What stands in a column instead of a value in its form. -/
def odd? : Held α → Option Stored
  | .value _ => none
  | .respelt cell _ | .unreadable cell _ => some cell

/-- The order of a column, given on which side of the values the rest is. -/
def order [Ord α] (rest : Ordering) (a b : Held α) : Ordering :=
  match a, b with
  | .value a, .value b => compare a b
  | .value _, _ => rest.swap
  | _, .value _ => rest
  | a, b =>
    match a.odd?, b.odd? with
    | some a, some b => a.order b
    | _, _ => .eq

/-- The order of a column of numbers, which come before texts. -/
def numberOrder : Held Int → Held Int → Ordering := order .gt

/-- The order of a column of identifiers, which come after texts. -/
def idOrder : Held Uuid → Held Uuid → Ordering := order .lt

end Held

end WordDuel
