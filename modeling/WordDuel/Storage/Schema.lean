/-!
# WordDuel.Storage.Schema

**The tables in which duels are stored**: their columns, which of them may be
empty, and which make up the primary key. There is one step from the empty
database to the tables and back.
-/

namespace WordDuel.Schema

/-- A column of a table. -/
structure Column where
  /-- The name of the column. -/
  name : String
  /-- Whether every row must have a value in it. -/
  notNull : Bool
  /-- Its place in the primary key from 1, or 0. -/
  key : Nat
  deriving DecidableEq

/-- A table with its columns in order. -/
structure Table where
  /-- The name of the table. -/
  name : String
  columns : List Column
  deriving DecidableEq

/-- A column of the primary key. -/
def Column.keyed (name : String) (key : Nat) : Column := ⟨name, true, key⟩

/-- A column that every row must fill. -/
def Column.filled (name : String) : Column := ⟨name, true, 0⟩

/-- A column that a row may leave empty. -/
def Column.optional (name : String) : Column := ⟨name, false, 0⟩

/-- The tables. A roster and a round belong to a room, standings and guesses to a round,
and all are deleted with what they belong to. -/
def tables : List Table :=
  [⟨"rooms", [.keyed "id" 1, .filled "language", .filled "status", .optional "current_round",
      .filled "created_at"]⟩,
   ⟨"room_players", [.keyed "room_id" 1, .keyed "player_id" 2, .filled "position",
      .filled "score"]⟩,
   ⟨"rounds", [.keyed "room_id" 1, .keyed "number" 2, .filled "target_word",
      .filled "max_attempts", .filled "status", .filled "started_at", .optional "finished_at"]⟩,
   ⟨"round_players", [.keyed "room_id" 1, .keyed "round_number" 2, .keyed "player_id" 3,
      .filled "status"]⟩,
   ⟨"guesses", [.keyed "room_id" 1, .keyed "round_number" 2, .keyed "player_id" 3,
      .keyed "attempt_number" 4, .filled "sequence", .filled "word", .filled "letters",
      .filled "created_at"]⟩]

/-- How far the schema of a database has come. -/
structure Version where
  /-- Whether the tables have been made. -/
  applied : Bool

namespace Version

/-- The database without tables. -/
def fresh : Version := ⟨false⟩

/-- Make the tables, if they are not there. -/
def up (_ : Version) : Version := ⟨true⟩

/-- Remove the tables, if they are there. -/
def down (_ : Version) : Version := ⟨false⟩

/-- The number of steps that are still to be made. -/
def pending (v : Version) : Nat := if v.applied then 0 else 1

/-- The tables that are there. -/
def tables (v : Version) : List Table := if v.applied then Schema.tables else []

end Version

end WordDuel.Schema
