import WordDuel.Text.Blank
import WordDuel.Text.Decimal
import WordDuel.Time.CivilDate
import WordDuel.Time.Instant
/-!
# WordDuel.Time.Timestamp

**Reading timestamps** that people and databases write. A text is tried against RFC
3339 first and then against looser forms, in which a space or a `T` stands between
date and time, seconds may be missing, numbers may lack their leading zeros, and no
offset means UTC.
-/

namespace WordDuel

namespace Timestamp

/-! ### What has been read -/

/-- A numeric part of a timestamp. -/
inductive Part
  | year
  /-- The month, from 1. -/
  | month
  /-- The day of the month, from 1. -/
  | day
  /-- The hour of the day. -/
  | hour
  /-- The minute of the hour. -/
  | minute
  /-- The second of the minute; 60 is a leap second. -/
  | second

/-- A date and a time of day, with the offset from UTC if one was given. -/
structure Reading where
  date : CivilDate := ⟨0, 1, 1⟩
  /-- The hour of the day. -/
  hour : Nat := 0
  /-- The minute of the hour. -/
  minute : Nat := 0
  /-- The second of the minute. -/
  second : Nat := 0
  /-- Nanoseconds into the second. -/
  nanos : Nat := 0
  /-- How many seconds the time of day is ahead of UTC. -/
  offset : Option Int := none

namespace Reading

/-- Fill in a part, unless it is out of bounds. -/
def fill? (r : Reading) (n : Int) : Part → Option Reading
  | .year => some { r with date.year := n }
  | .month => if 1 ≤ n ∧ n ≤ 12 then some { r with date.month := n.toNat } else none
  | .day => if 1 ≤ n ∧ n ≤ 31 then some { r with date.day := n.toNat } else none
  | .hour => if 0 ≤ n ∧ n ≤ 23 then some { r with hour := n.toNat } else none
  | .minute => if 0 ≤ n ∧ n ≤ 59 then some { r with minute := n.toNat } else none
  | .second => if 0 ≤ n ∧ n ≤ 60 then some { r with second := n.toNat } else none

/-- The instant of a time of day that is so many seconds ahead of UTC. The calendar must
have both the date that is written and the date in UTC. -/
def instant? (r : Reading) (ahead : Int) : Option Instant :=
  let leap := if r.second = 60 then 1 else 0
  let ofDay := r.hour * 3600 + r.minute * 60 + (r.second - leap)
  let written : Instant := ⟨r.date.toDays * 86400 + ofDay, leap * 1000000000 + r.nanos⟩
  let t := { written with seconds := written.seconds - ahead }
  if r.date.isReal ∧ written.Representable ∧ t.Representable then some t else none

/-- The instant by the offset that was given, which is less than a day. -/
def byOffset? (r : Reading) : Option Instant :=
  r.offset.bind fun ahead => if ahead.natAbs < 86400 then r.instant? ahead else none

end Reading

/-! ### Forms -/

/-- What a form consists of. -/
inductive Element
  /-- A number of exactly so many digits. -/
  | exactly (part : Part) (digits : Nat)
  /-- A number of at most so many digits, after white space if any. A year may have
  more digits if it has a sign. -/
  | atMost (part : Part) (digits : Nat)
  /-- One of some characters. -/
  | oneOf (cs : List Char)
  /-- White space, if any. -/
  | gap
  /-- A fraction of a second, if there is one. -/
  | fraction
  /-- An offset of hours and minutes, with white space and colons around and between. -/
  | offset
  /-- A `Z`, or an offset of hours and minutes with a colon between. -/
  | zone

/-- Read so many digits at most, and one at least. -/
def readDigits (digits : Nat) (cs : List Char) : Option (List Char × List Char) :=
  match (cs.take digits).takeWhile Char.isDigit with
  | [] => none
  | ds => some (ds, cs.drop ds.length)

/-- Read two digits. -/
def readTwo : List Char → Option (Nat × List Char)
  | a :: b :: rest => if a.isDigit && b.isDigit then some (Decimal.value [a, b], rest) else none
  | _ => none

/-- Read the sign of an offset. -/
def readSign : List Char → Option (Int × List Char)
  | '+' :: rest => some (1, rest)
  | '-' :: rest | '\u2212' :: rest => some (-1, rest)
  | _ => none

/-- Read an offset, given what may be skipped between hours and minutes. -/
def readOffset (skip : List Char → Option (List Char)) (cs : List Char) :
    Option (Int × List Char) := do
  let (sign, cs) ← readSign cs
  let (hours, cs) ← readTwo cs
  let cs ← skip cs
  let (minutes, cs) ← readTwo cs
  if minutes < 60 then some (sign * (hours * 3600 + minutes * 60), cs) else none

/-- Skip one colon. -/
def skipColon : List Char → Option (List Char)
  | ':' :: rest => some rest
  | _ => none

/-- Skip colons and white space. -/
def skipColons (cs : List Char) : Option (List Char) :=
  some (cs.dropWhile fun c => c = ':' || Text.isBlank c)

/-- Read a year with its sign, if it has one. -/
def readYear (digits : Nat) : List Char → Option (Int × List Char)
  | '-' :: rest =>
    (readDigits rest.length rest).map fun (ds, rest) => (-(Decimal.value ds : Int), rest)
  | '+' :: rest =>
    (readDigits rest.length rest).map fun (ds, rest) => ((Decimal.value ds : Int), rest)
  | cs => (readDigits digits cs).map fun (ds, rest) => ((Decimal.value ds : Int), rest)

/-- Read an element of a form. -/
def Element.read (e : Element) (r : Reading) (cs : List Char) : Option (Reading × List Char) :=
  match e with
  | .exactly part digits => do
    let (ds, rest) ← readDigits digits cs
    if ds.length = digits then (r.fill? (Decimal.value ds) part).map (·, rest) else none
  | .atMost .year digits => do
    let (n, rest) ← readYear digits (cs.dropWhile Text.isBlank)
    (r.fill? n .year).map (·, rest)
  | .atMost part digits => do
    let (ds, rest) ← readDigits digits (cs.dropWhile Text.isBlank)
    (r.fill? (Decimal.value ds) part).map (·, rest)
  | .oneOf expected =>
    match cs with
    | c :: rest => if c ∈ expected then some (r, rest) else none
    | [] => none
  | .gap => some (r, cs.dropWhile Text.isBlank)
  | .fraction =>
    match cs with
    | '.' :: rest => do
      let (ds, rest) ← readDigits 9 rest
      -- Digits beyond the ninth do not count.
      return ({ r with nanos := Decimal.value ds * Nat.pow 10 (9 - ds.length) },
        rest.dropWhile Char.isDigit)
    | _ => some (r, cs)
  | .offset => do
    let (ahead, rest) ← readOffset skipColons (cs.dropWhile Text.isBlank)
    return ({ r with offset := some ahead }, rest)
  | .zone =>
    match cs with
    | 'Z' :: rest | 'z' :: rest => some ({ r with offset := some 0 }, rest)
    | _ => do
      let (ahead, rest) ← readOffset skipColon cs
      return ({ r with offset := some ahead }, rest)

/-- Read a whole text by a form. -/
def readForm (form : List Element) (cs : List Char) : Option Reading := do
  let (r, rest) ← form.foldlM (fun (r, cs) (e : Element) => e.read r cs) ({}, cs)
  if rest = [] then some r else none

/-- The form of RFC 3339. -/
def strictForm : List Element :=
  [.exactly .year 4, .oneOf ['-'], .exactly .month 2, .oneOf ['-'], .exactly .day 2,
   .oneOf ['T', 't', ' '], .exactly .hour 2, .oneOf [':'], .exactly .minute 2, .oneOf [':'],
   .exactly .second 2, .fraction, .zone]

/-- A date, loosely. -/
def looseDate : List Element :=
  [.atMost .year 4, .oneOf ['-'], .atMost .month 2, .oneOf ['-'], .atMost .day 2]

/-- Hours and minutes, loosely. -/
def looseMinutes : List Element := [.atMost .hour 2, .oneOf [':'], .atMost .minute 2]

/-- A time of day to a fraction of a second, loosely. -/
def looseSeconds : List Element := looseMinutes ++ [.oneOf [':'], .atMost .second 2, .fraction]

/-- The looser forms: either separator, either precision, and no, a trivial or a
proper offset. -/
def looseForms : List (List Element) :=
  [Element.gap, .oneOf ['T']].flatMap fun separator =>
    [looseSeconds, looseMinutes].flatMap fun time =>
      [[], [.oneOf ['Z']], [Element.offset]].map fun ending =>
        looseDate ++ [separator] ++ time ++ ending

/-- Read a timestamp. In a looser form an offset of a day or more does not count. -/
def read? (s : String) : Option Instant :=
  let strict := (readForm strictForm s.toList).bind Reading.byOffset?
  let loose := looseForms.findSome? fun form =>
    (readForm form s.toList).bind fun r => r.byOffset?.or (r.instant? 0)
  strict.or loose

end Timestamp

end WordDuel
