/-!
# WordDuel.Time.Instant

**Points in time** as seconds since the beginning of 1970 in UTC and
nanoseconds into the second, and moving them by milliseconds within the range of
the calendar.
-/

namespace WordDuel

/-- A point in time. -/
structure Instant where
  /-- Whole seconds since the beginning of 1970, negative before. -/
  seconds : Int
  /-- Nanoseconds into the second; from 10⁹ on they belong to a leap second
  inserted after it. -/
  nanos : Nat
  deriving DecidableEq

namespace Instant

instance : Inhabited Instant := ⟨⟨0, 0⟩⟩

/-- The first second of the calendar, the beginning of the year -262143. -/
def firstSecond : Int := -8334601228800

/-- The last second of the calendar, the end of the year 262142. -/
def lastSecond : Int := 8210266876799

/-- Whether an instant falls on a date of the calendar. -/
def Representable (t : Instant) : Prop := firstSecond ≤ t.seconds ∧ t.seconds ≤ lastSecond

instance (t : Instant) : Decidable t.Representable := inferInstanceAs (Decidable (_ ∧ _))

/-- Nanoseconds since the beginning of 1970. -/
def totalNanos (t : Instant) : Int := t.seconds * 1000000000 + t.nanos

/-- The instant so many nanoseconds after the beginning of 1970. -/
def ofTotalNanos (n : Int) : Instant :=
  ⟨n.fdiv 1000000000, (n.fmod 1000000000).toNat⟩

/-- Move by some milliseconds, backwards if negative; `none` beyond the calendar. -/
def advance? (t : Instant) (ms : Int) : Option Instant :=
  let moved := ofTotalNanos (t.totalNanos + ms * 1000000)
  if moved.Representable then some moved else none

end Instant

end WordDuel
