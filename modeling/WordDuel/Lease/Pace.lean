/-!
# WordDuel.Lease.Pace

**How often the lease server is asked.** Times are in nanoseconds.
-/

namespace WordDuel

namespace Pace

/-- A millisecond. -/
def millisecond : Nat := 1000000

/-- Leases are not renewed more often than this. -/
def minRenewInterval : Nat := 10 * millisecond

/-- The time between renewals of a lease that lasts so many milliseconds: three
renewals per lease. -/
def renewInterval (ttlMs : Nat) : Nat := max (ttlMs * millisecond / 3) minRenewInterval

/-- The pause after the first claim that was refused. -/
def firstPause : Nat := 10 * millisecond

/-- The longest pause between claims. -/
def longestPause : Nat := 200 * millisecond

/-- The pause after a claim was refused so many times before. -/
def pauseAfter : (refusals : Nat) → Nat
  | 0 => firstPause
  | refusals + 1 => min (pauseAfter refusals * 2) longestPause

/-- The pause as it is made: longer by a random part of up to one half, counted in
whole milliseconds, and not beyond the end of the wait. -/
def madePause (refusals jitterMs remaining : Nat) : Nat :=
  let pause := pauseAfter refusals
  min (pause + jitterMs % (pause / millisecond / 2 + 1) * millisecond) remaining

end Pace

end WordDuel
