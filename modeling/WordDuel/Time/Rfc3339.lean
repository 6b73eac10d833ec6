import WordDuel.Text.Decimal
import WordDuel.Time.CivilDate
import WordDuel.Time.Instant
/-!
# WordDuel.Time.Rfc3339

**Timestamps as RFC 3339 text** in UTC: date and time of day with offset
`+00:00`, the fraction of the second with 3, 6 or 9 digits, whichever is the
fewest that lose nothing, and none if it is zero. Years of more or less than
four digits carry a sign; a leap second is second 60.
-/

namespace WordDuel

namespace CivilDate

/-- A year from 0 to 9999 has four digits; any other has a sign and at least four. -/
def yearText (year : Int) : String :=
  if 0 ≤ year ∧ year ≤ 9999 then String.ofList (Decimal.padded 4 year.toNat)
  else
    let ds := Decimal.digits year.natAbs
    let sign := if year < 0 then '-' else '+'
    String.ofList (sign :: (List.replicate (4 - ds.length) '0' ++ ds))

/-- Year, month and day, joined by hyphens. -/
def toText (d : CivilDate) : String :=
  yearText d.year ++ "-" ++ String.ofList (Decimal.padded 2 d.month) ++ "-" ++
    String.ofList (Decimal.padded 2 d.day)

end CivilDate

namespace Instant

/-- The fraction of a second, to milli-, micro- or nanoseconds. -/
def fractionText (nanos : Nat) : String :=
  if nanos = 0 then ""
  else if nanos % 1000000 = 0 then "." ++ String.ofList (Decimal.padded 3 (nanos / 1000000))
  else if nanos % 1000 = 0 then "." ++ String.ofList (Decimal.padded 6 (nanos / 1000))
  else "." ++ String.ofList (Decimal.padded 9 nanos)

/-- An instant as RFC 3339 text. -/
def toRfc3339 (t : Instant) : String :=
  let date := CivilDate.ofDays (t.seconds.fdiv 86400)
  let second := (t.seconds.fmod 86400).toNat
  let leap := if t.nanos < 1000000000 then 0 else 1
  let two := fun n => String.ofList (Decimal.padded 2 n)
  date.toText ++ "T" ++ two (second / 3600) ++ ":" ++ two (second / 60 % 60) ++ ":" ++
    two (second % 60 + leap) ++ fractionText (t.nanos - leap * 1000000000) ++ "+00:00"

end Instant

end WordDuel
