import WordDuel.Marking
/-!
# WordDuel.Sheet

**Marking on a sheet.** The letters of a guess stand on a sheet, all of them absent at first, with
the tally of the target beside them. Both passes go through the places in order, and look up and
change marks by the number of the place. So there are two things that could go wrong, and either
would end the marking: that the sheet has no such place, and that a letter is claimed whose count
is down to zero.
-/

namespace WordDuel

/-- What can go wrong when a sheet is marked. -/
inductive SheetFault
  /-- There is no such place on the sheet. -/
  | noPlace (i : Nat)
  /-- A letter is claimed of which none is left. -/
  | overdrawn (c : Char)
  deriving DecidableEq, Repr

/-- A guess on its way to being marked. -/
structure Sheet where
  /-- The letters of the guess with the marks that they have so far. -/
  letters : List MarkedLetter
  /-- What is left of the target. -/
  tally : Tally

namespace Sheet

/-- The sheet on which nothing has been found yet. -/
def blank (target guess : List Char) : Sheet :=
  ⟨guess.map fun c => ⟨c, .absent⟩, .ofWord target⟩

/-- The letter at a place. -/
def read (s : Sheet) (i : Nat) : Except SheetFault MarkedLetter :=
  match s.letters[i]? with
  | some l => .ok l
  | none => .error (.noPlace i)

/-- Change the mark at a place. -/
def write (s : Sheet) (i : Nat) (m : Mark) : Except SheetFault Sheet := do
  let l ← s.read i
  return { s with letters := s.letters.set i { l with mark := m } }

/-- Take one off the count of a letter, if it has one. -/
def claim (s : Sheet) (c : Char) : Except SheetFault Sheet :=
  match s.tally.get? c with
  | none => .ok s
  | some n =>
    if 1 ≤ n then .ok { s with tally := s.tally.claim c } else .error (.overdrawn c)

/-- What the first pass does at a place: it claims an exact match without asking whether there is
anything left to claim. -/
def matchAt (target : List Char) (s : Sheet) (place : Char × Nat) : Except SheetFault Sheet :=
  if target[place.2]? = some place.1 then do
    let s ← s.write place.2 .correct
    s.claim place.1
  else .ok s

/-- What the second pass does at a place. -/
def searchAt (s : Sheet) (place : Char × Nat) : Except SheetFault Sheet := do
  let l ← s.read place.2
  if l.mark ≠ .correct ∧ 0 < s.tally.left place.1 then
    let s ← s.write place.2 .present
    s.claim place.1
  else .ok s

/-- The sheet when the first pass has gone through the first `n` places. -/
def matchUpTo (target guess : List Char) (n : Nat) : Except SheetFault Sheet :=
  (guess.take n).zipIdx.foldlM (matchAt target) (blank target guess)

/-- The sheet when the first pass is over and the second one has gone through the first `n`
places. -/
def searchUpTo (target guess : List Char) (n : Nat) : Except SheetFault Sheet := do
  let s ← matchUpTo target guess guess.length
  (guess.take n).zipIdx.foldlM searchAt s

end Sheet

end WordDuel
