import WordDuel.Marking
/-!
# WordDuel.Proofs.Marks

**What the marks of a guess say**, letter by letter. A letter is correct if the target has it
in this place. Any other is present if fewer such letters come before it, among those that are
not correct, than the target has left once the correct ones are taken out of it (`mark_spec`).
So of every letter as many are found as target and guess have in common.

The first pass takes from the tally what it marks correct. The second pass finds a letter as
long as there is one left, and whether there is one is told by the letters before it: each of
them has taken one, or has found none left.
-/

namespace WordDuel

namespace Tally

theorem left_claim (t : Tally) (c d : Char) :
    (t.claim c).left d = if d = c then t.left d - 1 else t.left d := by
  rw [claim, left_add]
  split <;> omega

theorem left_ofWord (target : List Char) (c : Char) : (ofWord target).left c = target.count c := by
  suffices hfold : ∀ t : Tally,
      (target.foldl (fun t d => t.add d 1) t).left c = t.left c + target.count c by
    exact (hfold .empty).trans (Int.zero_add _)
  induction target with
  | nil => exact fun t => (Int.add_zero _).symm
  | cons d target ih =>
      intro t
      rw [List.foldl_cons, ih, left_add, List.count_cons]
      by_cases hc : c = d
      · simp [hc]
        omega
      · simp [hc, Ne.symm hc]

end Tally

namespace Marking

/-! ### Counting marks -/

/-- How often a letter is marked correct. -/
def countCorrect (c : Char) (ls : List MarkedLetter) : Nat :=
  ls.countP fun l => l.letter == c && l.mark == .correct

/-- How often a letter is marked otherwise. -/
def countOther (c : Char) (ls : List MarkedLetter) : Nat :=
  ls.countP fun l => l.letter == c && l.mark != .correct

/-- How often a letter is marked correct or present. -/
def countFound (c : Char) (ls : List MarkedLetter) : Nat :=
  ls.countP fun l => l.letter == c && l.mark != .absent

section

variable (c : Char) (l : MarkedLetter) (ls : List MarkedLetter)

theorem countCorrect_cons : countCorrect c (l :: ls) =
    countCorrect c ls + if l.letter = c ∧ l.mark = .correct then 1 else 0 := by
  simp [countCorrect, List.countP_cons]

theorem countOther_cons : countOther c (l :: ls) =
    countOther c ls + if l.letter = c ∧ l.mark ≠ .correct then 1 else 0 := by
  simp [countOther, List.countP_cons]

theorem countFound_cons : countFound c (l :: ls) =
    countFound c ls + if l.letter = c ∧ l.mark ≠ .absent then 1 else 0 := by
  simp [countFound, List.countP_cons]

end

/-- A letter is correct or it is not. -/
theorem count_letters (c : Char) (ls : List MarkedLetter) :
    (ls.map MarkedLetter.letter).count c = countCorrect c ls + countOther c ls := by
  induction ls with
  | nil => rfl
  | cons l ls ih =>
      rw [List.map_cons, List.count_cons, ih, countCorrect_cons, countOther_cons]
      by_cases hletter : l.letter = c <;> by_cases hmark : l.mark = .correct <;>
        simp [hletter, hmark] <;> omega

/-! ### Exact matches -/

variable {target guess : List Char} {t : Tally}

/-- The first pass goes by the place alone. -/
theorem getElem?_markExact (i : Nat) :
    (markExact target guess t).1[i]? = guess[i]?.map fun c =>
      ⟨c, if target[i]? = some c then .correct else .absent⟩ := by
  induction guess generalizing target t i with
  | nil => rfl
  | cons c guess ih =>
      rw [markExact]
      cases i with
      | zero =>
          simp only [← List.head?_eq_getElem?]
          split
          · next hhead => simp [hhead]
          · next hhead => simp [hhead]
      | succ i =>
          simp only [← List.getElem?_tail]
          split
          · exact ih i
          · exact ih i

theorem left_markExact (c : Char) :
    (markExact target guess t).2.left c =
      t.left c - countCorrect c (markExact target guess t).1 := by
  induction guess generalizing target t with
  | nil => exact (Int.sub_zero _).symm
  | cons d guess ih =>
      rw [markExact]
      split
      · dsimp only
        rw [ih, Tally.left_claim, countCorrect_cons]
        by_cases hc : c = d
        · simp [hc]
          omega
        · simp [hc, Ne.symm hc]
      · dsimp only
        rw [ih, countCorrect_cons]
        simp

/-- No letter is marked correct more often than the target has it. -/
theorem countCorrect_markExact_le (c : Char) :
    countCorrect c (markExact target guess t).1 ≤ target.count c := by
  induction guess generalizing target t with
  | nil => exact Nat.zero_le _
  | cons d guess ih =>
      rw [markExact]
      split
      · next hhead =>
        obtain ⟨rest, rfl⟩ := List.head?_eq_some_iff.1 hhead
        have hrest : countCorrect c (markExact rest guess (t.claim d)).1 ≤ rest.count c := ih
        dsimp only [List.tail_cons]
        rw [countCorrect_cons, List.count_cons]
        by_cases hc : d = c
        · simpa [hc] using hrest
        · simpa [hc] using hrest
      · have hrest : countCorrect c (markExact target.tail guess t).1 ≤ target.tail.count c := ih
        have htail := (List.tail_sublist target).count_le c
        dsimp only
        rw [countCorrect_cons]
        simpa using Nat.le_trans hrest htail

/-! ### Letters that are left -/

/-- The second pass changes no correct letter, and makes none. -/
theorem correct_markPresent (ls : List MarkedLetter) (t : Tally) :
    (markPresent ls t).1.map (fun l => (l.letter, l.mark == .correct)) =
      ls.map fun l => (l.letter, l.mark == .correct) := by
  induction ls generalizing t with
  | nil => rfl
  | cons l ls ih =>
      rw [markPresent]
      split
      · next hfound => simp [ih, beq_eq_false_iff_ne.2 hfound.1]
      · simp [ih]

theorem countP_take_markPresent (q : Char × Bool → Bool) (ls : List MarkedLetter) (t : Tally)
    (i : Nat) :
    ((markPresent ls t).1.take i).countP (fun l => q (l.letter, l.mark == .correct)) =
      (ls.take i).countP fun l => q (l.letter, l.mark == .correct) := by
  have hmap := congrArg (fun ps => (ps.take i).countP q) (correct_markPresent ls t)
  simpa only [← List.map_take, List.countP_map, Function.comp_def] using hmap

theorem countCorrect_markPresent (c : Char) (ls : List MarkedLetter) (t : Tally) :
    countCorrect c (markPresent ls t).1 = countCorrect c ls := by
  have hlength : (markPresent ls t).1.length = ls.length := by
    simpa using congrArg List.length (letters_markPresent ls t)
  have htake := countP_take_markPresent (fun p => p.1 == c && p.2) ls t ls.length
  rwa [List.take_length, List.take_of_length_le (Nat.le_of_eq hlength)] at htake

theorem countOther_take_markPresent (c : Char) (ls : List MarkedLetter) (t : Tally) (i : Nat) :
    countOther c ((markPresent ls t).1.take i) = countOther c (ls.take i) :=
  countP_take_markPresent (fun p => p.1 == c && !p.2) ls t i

/-- A letter that is not correct is found if the letters before it that are not correct leave
one for it. -/
theorem getElem?_markPresent (ls : List MarkedLetter) (t : Tally) (i : Nat) :
    (markPresent ls t).1[i]? = ls[i]?.map fun l => ⟨l.letter,
      if l.mark ≠ .correct ∧ (countOther l.letter (ls.take i) : Int) < t.left l.letter then .present
      else l.mark⟩ := by
  induction ls generalizing t i with
  | nil => rfl
  | cons first ls ih =>
      rw [markPresent]
      cases i with
      | zero =>
          have hnone : countOther first.letter ((first :: ls).take 0) = 0 := rfl
          rw [List.getElem?_cons_zero, Option.map_some, hnone, Int.natCast_zero]
          split <;> rfl
      | succ i =>
          have hbefore (l : MarkedLetter) :
              (countOther l.letter ((first :: ls).take (i + 1)) : Int) =
              countOther l.letter (ls.take i) +
                if first.letter = l.letter ∧ first.mark ≠ .correct then 1 else 0 := by
            rw [List.take_succ_cons, countOther_cons]
            split <;> simp
          simp only [List.getElem?_cons_succ, hbefore]
          -- The first letter has taken one of those that are left, or finds none left.
          split
          · next hfound =>
            refine (ih _ i).trans (congrArg (ls[i]?.map ·) (funext fun l => ?_))
            rw [Tally.left_claim]
            by_cases hletter : first.letter = l.letter
            · have htaken : first.letter = l.letter ∧ first.mark ≠ .correct :=
                ⟨hletter, hfound.1⟩
              simp only [if_pos hletter.symm, if_pos htaken, Int.lt_sub_right_iff_add_lt]
            · have hother : ¬(first.letter = l.letter ∧ first.mark ≠ .correct) :=
                fun htaken => hletter htaken.1
              rw [if_neg (Ne.symm hletter), if_neg hother, Int.add_zero]
          · next hnot =>
            refine (ih _ i).trans (congrArg (ls[i]?.map ·) (funext fun l => ?_))
            by_cases hmissed : first.letter = l.letter ∧ first.mark ≠ .correct
            · have hnone : t.left l.letter ≤ 0 := by
                rw [← hmissed.1]
                exact Int.not_lt.1 fun hleft => hnot ⟨hmissed.2, hleft⟩
              have hlate (n : Nat) : ¬(n : Int) < t.left l.letter := by omega
              have hlater (n : Nat) : ¬(n + 1 : Int) < t.left l.letter := by omega
              rw [if_pos hmissed, if_neg fun h => hlate _ h.2, if_neg fun h => hlater _ h.2]
            · rw [if_neg hmissed, Int.add_zero]

/-- Of the letters that are not correct as many are found as there are left. -/
theorem countFound_markPresent (c : Char) {ls : List MarkedLetter}
    (h : ∀ l ∈ ls, l.mark ≠ .present) :
    countFound c (markPresent ls t).1 =
      countCorrect c ls + min (countOther c ls) (t.left c).toNat := by
  induction ls generalizing t with
  | nil => simp [markPresent, countFound, countCorrect, countOther]
  | cons l ls ih =>
      have hrest (t : Tally) := ih (t := t) fun l' hl' => h l' (List.mem_cons_of_mem l hl')
      rw [countCorrect_cons, countOther_cons, markPresent]
      split
      · next hfound =>
        dsimp only
        rw [countFound_cons, hrest, Tally.left_claim]
        by_cases hletter : l.letter = c
        · obtain ⟨hmark, hleft⟩ := hfound
          rw [hletter] at hleft
          simp [hletter, hmark]
          omega
        · simp [hletter, Ne.symm hletter]
      · next hnot =>
        dsimp only
        rw [countFound_cons, hrest]
        by_cases hletter : l.letter = c
        · cases hmark : l.mark with
          | correct =>
              simp [hletter]
              omega
          | present => exact (h l List.mem_cons_self hmark).elim
          | absent =>
              have hnone : t.left c ≤ 0 := by
                rw [← hletter]
                exact Int.not_lt.1 fun hleft => hnot ⟨by simp [hmark], hleft⟩
              simp [hletter]
              omega
        · simp [hletter]

/-! ### Both passes -/

/-- Every letter of the guess is marked, in order. It is correct if the target has it in this
place; otherwise it is present if fewer such letters that are not correct come before it than
the target has beyond those that are correct, and absent if not. Of every letter as many are
found as target and guess both have. -/
theorem mark_spec (target guess : String) :
    (∀ i : Nat, (mark target guess)[i]? = guess.toList[i]?.map fun c => ⟨c,
      if target.toList[i]? = some c then .correct
      else if countOther c ((mark target guess).take i) <
          target.toList.count c - countCorrect c (mark target guess) then .present
      else .absent⟩) ∧
    ∀ c : Char, countFound c (mark target guess) =
      min (target.toList.count c) (guess.toList.count c) := by
  let first := markExact target.toList guess.toList (.ofWord target.toList)
  have hmark : mark target guess = (markPresent first.1 first.2).1 := rfl
  have hexact (c : Char) : countCorrect c (mark target guess) = countCorrect c first.1 :=
    countCorrect_markPresent c first.1 first.2
  have hleft (c : Char) : first.2.left c = target.toList.count c - countCorrect c first.1 := by
    rw [← Tally.left_ofWord]
    exact left_markExact c
  have hle (c : Char) : countCorrect c first.1 ≤ target.toList.count c :=
    countCorrect_markExact_le c
  have hplace (i : Nat) : first.1[i]? = guess.toList[i]?.map fun c =>
      ⟨c, if target.toList[i]? = some c then .correct else .absent⟩ := getElem?_markExact i
  refine ⟨fun i => ?_, fun c => ?_⟩
  · have hbefore (c : Char) : countOther c ((mark target guess).take i) =
        countOther c (first.1.take i) := countOther_take_markPresent _ _ _ _
    have hless (c : Char) (n : Nat) : (n : Int) < target.toList.count c - countCorrect c first.1 ↔
        n < target.toList.count c - countCorrect c first.1 := by
      have := hle c
      omega
    simp only [hbefore, hexact]
    rw [hmark, getElem?_markPresent, hplace, Option.map_map]
    refine congrArg (guess.toList[i]?.map ·) (funext fun c => ?_)
    by_cases hhere : target.toList[i]? = some c <;> simp [hhere, hleft, hless]
  · have hletters := count_letters c first.1
    rw [letters_markExact] at hletters
    have hnotPresent : ∀ l ∈ first.1, l.mark ≠ .present := by
      intro l hl
      obtain ⟨i, hi⟩ := List.mem_iff_getElem?.1 hl
      rw [hplace] at hi
      obtain ⟨c, -, rfl⟩ := Option.map_eq_some_iff.1 hi
      dsimp only
      split <;> simp
    rw [hmark, countFound_markPresent c hnotPresent, hletters, hleft]
    have := hle c
    omega

/-- Of two letters the one that the target has goes to the first. -/
example : (mark "HELPS" "LLAMA").map MarkedLetter.mark =
    [.present, .absent, .absent, .absent, .absent] := by
  decide +kernel

end Marking

end WordDuel
