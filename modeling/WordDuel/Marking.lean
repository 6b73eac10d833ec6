import WordDuel.Letter
import WordDuel.SortedMap
/-!
# WordDuel.Marking

**Marking a guess against the target.** A letter is marked correct or present only
as often as it occurs in the target. Exact matches claim their occurrences first;
the other letters, from left to right, claim what is left over.
-/

namespace WordDuel

/-! ### Tallies -/

/-- How many occurrences of each letter of the target are not claimed yet. Counts
are integers, so that a claim too many would show as a negative count. -/
abbrev Tally := SortedMap Char Int

namespace Tally

/-- The number of occurrences left of a letter. -/
def left (t : Tally) (c : Char) : Int := (t.get? c).getD 0

/-- Change the number of occurrences left of a letter. -/
def add (t : Tally) (c : Char) (n : Int) : Tally := t.insert c (t.left c + n)

/-- Every letter of a word, unclaimed. -/
def ofWord (target : List Char) : Tally := target.foldl (fun t c => t.add c 1) .empty

/-- Claim an occurrence of a letter. -/
def claim (t : Tally) (c : Char) : Tally := t.add c (-1)

theorem left_add (t : Tally) (c d : Char) (n : Int) :
    (t.add c n).left d = t.left d + if d = c then n else 0 := by
  by_cases h : d = c
  · subst h; simp [left, add]
  · simp [left, add, SortedMap.get?_insert_of_ne _ _ h, h]

end Tally

/-! ### Marking -/

namespace Marking

/-- Mark the exact matches correct and everything else absent, claiming the matched
letters. -/
def markExact : (target guess : List Char) → Tally → List MarkedLetter × Tally
  | _, [], t => ([], t)
  | target, c :: guess, t =>
    -- Beyond the end of the target nothing matches.
    if target.head? = some c then
      let (ls, t) := markExact target.tail guess (t.claim c)
      (⟨c, .correct⟩ :: ls, t)
    else
      let (ls, t) := markExact target.tail guess t
      (⟨c, .absent⟩ :: ls, t)

/-- Mark the letters present that are not correct and can still be claimed. -/
def markPresent : List MarkedLetter → Tally → List MarkedLetter × Tally
  | [], t => ([], t)
  | l :: ls, t =>
    if l.mark ≠ .correct ∧ 0 < t.left l.letter then
      let (ls, t) := markPresent ls (t.claim l.letter)
      (⟨l.letter, .present⟩ :: ls, t)
    else
      let (ls, t) := markPresent ls t
      (l :: ls, t)

/-- Mark every letter of a guess, in order. -/
def mark (target guess : String) : List MarkedLetter :=
  let (ls, t) := markExact target.toList guess.toList (.ofWord target.toList)
  (markPresent ls t).1

/-- Whether letters are all correct, and there is at least one. -/
def isSolved (ls : List MarkedLetter) : Bool :=
  !ls.isEmpty && ls.all fun l => l.mark == .correct

/-! ### The letters stay -/

theorem letters_markExact (target guess : List Char) (t : Tally) :
    (markExact target guess t).1.map MarkedLetter.letter = guess := by
  induction guess generalizing target t with
  | nil => rfl
  | cons c guess ih =>
      rw [markExact]
      split <;> simp [ih]

theorem letters_markPresent (ls : List MarkedLetter) (t : Tally) :
    (markPresent ls t).1.map MarkedLetter.letter = ls.map MarkedLetter.letter := by
  induction ls generalizing t with
  | nil => rfl
  | cons l ls ih =>
      rw [markPresent]
      split <;> simp [ih]

/-- The marked letters spell the guess. -/
theorem letters_mark (target guess : String) :
    (mark target guess).map MarkedLetter.letter = guess.toList := by
  rw [mark, letters_markPresent, letters_markExact]

end Marking

end WordDuel
