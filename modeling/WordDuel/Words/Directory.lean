import WordDuel.Words.Dictionary
/-!
# WordDuel.Words.Directory

**Word lists in files**: a directory has a subdirectory per language, named by the
language's code in lower case, with the files `allowed.txt` and `answers.txt`. A
missing file is an empty list; a file that cannot be read as UTF-8 text is a
failure. The list of answers is read first, whichever list is asked for.
-/

namespace WordDuel

/-- What is found under a path. -/
inductive FileNode
  /-- A file with these bytes. -/
  | file (bytes : ByteArray)
  | directory

/-- A directory of word lists. -/
structure WordDirectory where
  /-- The path of the directory itself. -/
  root : String
  /-- What is found under a path relative to the directory. -/
  node? : String → Option FileNode

namespace WordDirectory

/-- The places that a path leads through, the last of them first. A place is the names
that lead to it, the last of them first; outside the directory they begin with `..`. -/
def placesOn (path : String) : List (List String) :=
  (path.splitOn "/").foldl (fun places name =>
    let here := places.headD []
    if name = "" ∨ name = "." then places
    else if name = ".." ∧ here.any (· ≠ "..") then here.tail :: places
    else (name :: here) :: places) [[]]

/-- The place that a path leads to. -/
def placeOf (path : String) : List String := (placesOn path).headD []

/-- A directory that holds files under paths. What a path leads through is a directory
too. If two paths lead to one place, the later file is there. -/
def ofFiles (root : String) (files : List (String × FileNode)) : WordDirectory where
  root
  node? path :=
    match files.reverse.find? fun file => placeOf file.1 == placeOf path with
    | some (_, node) => some node
    | none =>
      if files.any fun file => (placesOn file.1).contains (placeOf path) then some .directory
      else none

/-- Where a list is kept, relative to the directory. -/
def path (l : Language) : WordKind → String
  | .allowed => l.directory ++ "/allowed.txt"
  | .answers => l.directory ++ "/answers.txt"

/-- Read one file. -/
def readList (dir : WordDirectory) (l : Language) (kind : WordKind) :
    Except DictionaryCause WordSet :=
  match dir.node? (path l kind) with
  | none => .ok .empty
  | some .directory => .error (.unreadable (dir.root ++ "/" ++ path l kind))
  | some (.file bytes) =>
    match String.fromUTF8? bytes with
    | some text => .ok (WordList.parse text)
    | none => .error (.unreadable (dir.root ++ "/" ++ path l kind))

/-- The words of a kind. What may be the target may be guessed too. -/
def load (dir : WordDirectory) : WordSource := fun l kind => do
  let answers ← dir.readList l .answers
  match kind with
  | .answers => return answers
  | .allowed => return (← dir.readList l .allowed).union answers

end WordDirectory

end WordDuel
