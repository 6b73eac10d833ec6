import WordDuel.Number.Numeral
import WordDuel.Storage.Tables
import WordDuel.Time.Timestamp
/-!
# WordDuel.Storage.Edit

**Editing the tables by hand**: setting one column of a table to the same value in
all rows, as somebody with access to the database might. The database takes what fits
the type of the column, in whatever form it comes, and keeps anything else as it is. An
edit that would put the keys out of order is refused.
-/

namespace WordDuel

/-- What somebody puts into a column. -/
inductive Cell
  /-- No value. -/
  | empty
  /-- A whole number of 64 bits. -/
  | int (n : Int)
  /-- A real number. -/
  | real (x : Double)
  | text (s : String)

namespace Cell

/-- A whole number; beyond 64 bits it is a real one. -/
def number (n : Int) : Cell :=
  if -9223372036854775808 ≤ n ∧ n ≤ 9223372036854775807 then .int n else .real (.ofInt n)

/-- What a column of text holds then; it must hold something. A number becomes its
numeral. -/
def text? : Cell → Option String
  | .text s => some s
  | .int n => some (Decimal.ofInt n)
  | .real x => some x.toText
  | .empty => none

/-- A whole number in a column of 32 bits. -/
def heldNumber (n : Int) : Held Int :=
  if -2147483648 ≤ n ∧ n ≤ 2147483647 then .value n
  else .unreadable (.int n) "number out of range"

/-- A real number in a column of whole numbers; one that is whole becomes that number,
unless it is at the bounds of 64 bits or beyond. -/
def heldReal (x : Double) : Held Int :=
  match x.whole? with
  | some n =>
    if -9223372036854775808 < n ∧ n < 9223372036854775807 then heldNumber n
    else .unreadable (.real x) "not a whole number"
  | none => .unreadable (.real x) "not a whole number"

/-- What a column of whole numbers holds then; it must hold something. A numeral becomes
its number. -/
def number? : Cell → Option (Held Int)
  | .int n => some (heldNumber n)
  | .real x => some (heldReal x)
  | .text s => some <|
    match Numeral.read? s with
    | some x => x.digitsAlone?.elim (heldReal x.toDouble) heldNumber
    | none => .unreadable (.text s) "not a number"
  | .empty => none

/-- What a column of whole numbers holds then that may be empty. -/
def optionalNumber? : Cell → Option (Held (Option Int))
  | .empty => some (.value none)
  | c => c.number?.map (Held.map some)

/-- What a column of times holds then; it must hold something. Times are texts. -/
def time? (c : Cell) : Option (Held Instant) :=
  c.text?.map fun s =>
    (Timestamp.read? s).elim (.unreadable (.text s) ("invalid datetime: " ++ s))
      (.respelt (.text s))

/-- What a column of times holds then that may be empty. -/
def optionalTime? : Cell → Option (Held (Option Instant))
  | .empty => some (.value none)
  | c => c.time?.map (Held.map some)

/-- What a column of identifiers holds then; it must hold something. An identifier is its
bytes, so that a text of as many bytes can be read as one. -/
def id? (c : Cell) : Option (Held Uuid) :=
  c.text?.map fun s =>
    (Uuid.ofBytes? s.toUTF8.toList).elim (.unreadable (.text s) "not an identifier")
      (.respelt (.text s))

end Cell

namespace Tables

/-- Tables after an edit, unless their keys are no longer in order. -/
def ifSound (t : Tables) : Option Tables := if t.Sound then some t else none

/-- Change every room. -/
def editRooms (t : Tables) (edit : RoomRow → Option RoomRow) : Option Tables := do
  ifSound { t with rooms := ← t.rooms.mapM edit }

/-- Change every row of a roster. -/
def editRoster (t : Tables) (edit : RosterRow → Option RosterRow) : Option Tables := do
  ifSound { t with roster := ← t.roster.mapM edit }

/-- Change every round. -/
def editRounds (t : Tables) (edit : RoundRow → Option RoundRow) : Option Tables := do
  ifSound { t with rounds := ← t.rounds.mapM edit }

/-- Change every standing. -/
def editStandings (t : Tables) (edit : StandingRow → Option StandingRow) : Option Tables := do
  ifSound { t with standings := ← t.standings.mapM edit }

/-- Change every guess. -/
def editGuesses (t : Tables) (edit : GuessRow → Option GuessRow) : Option Tables := do
  ifSound { t with guesses := ← t.guesses.mapM edit }

/-- Set a column of rooms. -/
def overwriteRooms (t : Tables) (v : Cell) : (column : String) → Option Tables
  | "id" => t.editRooms fun r => return { r with id := ← v.id? }
  | "language" => t.editRooms fun r => return { r with language := ← v.text? }
  | "status" => t.editRooms fun r => return { r with status := ← v.text? }
  | "current_round" => t.editRooms fun r => return { r with currentRound := ← v.optionalNumber? }
  | "created_at" => t.editRooms fun r => return { r with createdAt := ← v.time? }
  | _ => none

/-- Set a column of rosters. -/
def overwriteRoster (t : Tables) (v : Cell) : (column : String) → Option Tables
  | "room_id" => t.editRoster fun r => return { r with room := ← v.id? }
  | "player_id" => t.editRoster fun r => return { r with player := ← v.id? }
  | "position" => t.editRoster fun r => return { r with position := ← v.number? }
  | "score" => t.editRoster fun r => return { r with score := ← v.number? }
  | _ => none

/-- Set a column of rounds. -/
def overwriteRounds (t : Tables) (v : Cell) : (column : String) → Option Tables
  | "room_id" => t.editRounds fun r => return { r with room := ← v.id? }
  | "number" => t.editRounds fun r => return { r with number := ← v.number? }
  | "target_word" => t.editRounds fun r => return { r with target := ← v.text? }
  | "max_attempts" => t.editRounds fun r => return { r with maxAttempts := ← v.number? }
  | "status" => t.editRounds fun r => return { r with status := ← v.text? }
  | "started_at" => t.editRounds fun r => return { r with startedAt := ← v.time? }
  | "finished_at" => t.editRounds fun r => return { r with finishedAt := ← v.optionalTime? }
  | _ => none

/-- Set a column of standings. -/
def overwriteStandings (t : Tables) (v : Cell) : (column : String) → Option Tables
  | "room_id" => t.editStandings fun r => return { r with room := ← v.id? }
  | "round_number" => t.editStandings fun r => return { r with round := ← v.number? }
  | "player_id" => t.editStandings fun r => return { r with player := ← v.id? }
  | "status" => t.editStandings fun r => return { r with status := ← v.text? }
  | _ => none

/-- Set a column of guesses. -/
def overwriteGuesses (t : Tables) (v : Cell) : (column : String) → Option Tables
  | "room_id" => t.editGuesses fun r => return { r with room := ← v.id? }
  | "round_number" => t.editGuesses fun r => return { r with round := ← v.number? }
  | "player_id" => t.editGuesses fun r => return { r with player := ← v.id? }
  | "attempt_number" => t.editGuesses fun r => return { r with attempt := ← v.number? }
  | "sequence" => t.editGuesses fun r => return { r with sequence := ← v.number? }
  | "word" => t.editGuesses fun r => return { r with word := ← v.text? }
  | "letters" => t.editGuesses fun r => return { r with letters := ← v.text? }
  | "created_at" => t.editGuesses fun r => return { r with createdAt := ← v.time? }
  | _ => none

/-- Set a column of the table in which the database keeps the steps that its schema has
gone through. Nothing here depends on it. -/
def overwriteSteps (t : Tables) (v : Cell) : (column : String) → Option Tables
  | "version" => v.text?.map fun _ => t
  | "applied_at" => v.number?.map fun _ => t
  | _ => none

/-- How many rows a table has. -/
def rowCount? (t : Tables) : (table : String) → Option Nat
  | "rooms" => some t.rooms.length
  | "room_players" => some t.roster.length
  | "rounds" => some t.rounds.length
  | "round_players" => some t.standings.length
  | "guesses" => some t.guesses.length
  | "seaql_migrations" => some 1
  | _ => none

/-- Set the column in which every table numbers its rows. Nothing here depends on it, but
no two rows have the same number. -/
def renumber (t : Tables) (table : String) (v : Cell) : Option Tables :=
  match t.rowCount? table, v.number? with
  | some 0, _ => some t
  | some 1, some (.value _) | some 1, some (.unreadable (.int _) _) => some t
  | _, _ => none

/-- Set a column of a table to a value in all rows. The case of names does not matter. -/
def overwrite (t : Tables) (table column : String) (v : Cell) : Option Tables :=
  let table := table.toLower
  let column := column.toLower
  if column ∈ ["rowid", "oid", "_rowid_"] then t.renumber table v
  else
    match table with
    | "rooms" => t.overwriteRooms v column
    | "room_players" => t.overwriteRoster v column
    | "rounds" => t.overwriteRounds v column
    | "round_players" => t.overwriteStandings v column
    | "guesses" => t.overwriteGuesses v column
    | "seaql_migrations" => t.overwriteSteps v column
    | _ => none

end Tables

end WordDuel
