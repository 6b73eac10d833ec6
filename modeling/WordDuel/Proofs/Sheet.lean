import WordDuel.Proofs.Marks
import WordDuel.Sheet
/-!
# WordDuel.Proofs.Sheet

**Marking on a sheet goes well.** Neither pass ever looks for a place that the sheet does not have,
and no letter is claimed of which none is left, although the first pass does not ask. What carries
the first pass is that the tally covers the part of the target that is still to come
(`Tally.Covers`): a match takes a letter off both. In the end the marks are those of `mark`, and
of every letter there is left what the guess has not asked for (`counts_suffice`).
-/

namespace WordDuel

namespace Tally

variable {t : Tally} {c : Char} {target : List Char}

/-- Every letter of a word can still be claimed. -/
def Covers (t : Tally) (target : List Char) : Prop := ∀ c : Char, (target.count c : Int) ≤ t.left c

theorem covers_ofWord (target : List Char) : (ofWord target).Covers target := fun c =>
  Int.le_of_eq (left_ofWord target c).symm

theorem Covers.drop (h : t.Covers target) (n : Nat) : t.Covers (target.drop n) := fun c =>
  Int.le_trans (Int.ofNat_le.2 ((List.drop_sublist n target).count_le c)) (h c)

/-- The next letter of the word is there to be claimed. -/
theorem Covers.one_le (h : t.Covers target) (hhead : target.head? = some c) : 1 ≤ t.left c := by
  have hmem : c ∈ target := List.mem_of_head? hhead
  have hcount : 1 ≤ target.count c := List.one_le_count_iff.2 hmem
  have := h c
  omega

theorem Covers.claim (h : t.Covers target) (hhead : target.head? = some c) :
    (t.claim c).Covers target.tail := by
  obtain ⟨rest, rfl⟩ := List.head?_eq_some_iff.1 hhead
  intro d
  have hd := h d
  rw [List.count_cons] at hd
  rw [left_claim, List.tail_cons]
  by_cases hcd : d = c
  · subst hcd
    simp at hd ⊢
    omega
  · simpa [hcd, Ne.symm hcd] using hd

end Tally

open Marking

namespace Marking

variable {target guess : List Char} {t : Tally}

theorem length_markExact (target guess : List Char) (t : Tally) :
    (markExact target guess t).1.length = guess.length := by
  simpa using congrArg List.length (letters_markExact target guess t)

theorem length_markPresent (ls : List MarkedLetter) (t : Tally) :
    (markPresent ls t).1.length = ls.length := by
  simpa using congrArg List.length (letters_markPresent ls t)

/-- The first pass leaves enough for the rest of the target. -/
theorem covers_markExact (guess : List Char) (h : t.Covers target) :
    (markExact target guess t).2.Covers (target.drop guess.length) := by
  induction guess generalizing target t with
  | nil => exact h
  | cons c guess ih =>
      rw [markExact, List.length_cons, ← List.drop_tail]
      split
      · next hhead => exact ih (h.claim hhead)
      · exact ih (List.drop_one ▸ h.drop 1)

/-- The second pass takes one of each letter that it finds. -/
theorem left_markPresent (c : Char) (ls : List MarkedLetter) (h : 0 ≤ t.left c) :
    (markPresent ls t).2.left c = t.left c - min (countOther c ls : Int) (t.left c) := by
  induction ls generalizing t with
  | nil =>
      simp only [markPresent, countOther, List.countP_nil]
      omega
  | cons l ls ih =>
      rw [markPresent, countOther_cons]
      split
      · next hfound =>
        dsimp only
        by_cases hletter : l.letter = c
        · obtain ⟨hmark, hleft⟩ := hfound
          rw [hletter] at hleft ⊢
          have hclaim : (t.claim c).left c = t.left c - 1 := by rw [Tally.left_claim, if_pos rfl]
          rw [ih (by omega), hclaim, if_pos ⟨rfl, hmark⟩]
          omega
        · have hclaim : (t.claim l.letter).left c = t.left c := by
            rw [Tally.left_claim, if_neg (Ne.symm hletter)]
          rw [ih (by omega), hclaim, if_neg fun hc => hletter hc.1]
          simp
      · next hnot =>
        dsimp only
        rw [ih h]
        by_cases hmissed : l.letter = c ∧ l.mark ≠ .correct
        · -- A letter that is not correct and not found has none left.
          have hnone : t.left c ≤ 0 := by
            rw [← hmissed.1]
            exact Int.not_lt.1 fun hleft => hnot ⟨hmissed.2, hleft⟩
          rw [if_pos hmissed]
          omega
        · rw [if_neg hmissed]
          simp

end Marking

namespace Sheet

/-! ### One place -/

section

variable (before after : List MarkedLetter) (l : MarkedLetter) (t : Tally)

theorem read_append : read ⟨before ++ l :: after, t⟩ before.length = .ok l := by
  simp [read]

theorem write_append (m : Mark) : write ⟨before ++ l :: after, t⟩ before.length m =
    .ok ⟨before ++ ⟨l.letter, m⟩ :: after, t⟩ := by
  simp [write, read_append, bind, Except.bind, pure, Except.pure]

end

theorem claim_eq_ok {s : Sheet} {c : Char} (h : 1 ≤ s.tally.left c) :
    s.claim c = .ok { s with tally := s.tally.claim c } := by
  rw [Tally.left] at h
  rw [claim]
  cases hcount : s.tally.get? c with
  | none => simp [hcount] at h
  | some n =>
      rw [hcount, Option.getD_some] at h
      exact if_pos h

variable {target guess : List Char} {t : Tally} {before : List MarkedLetter}

theorem matchAt_of_match (c : Char) (after : List MarkedLetter)
    (hcovers : t.Covers (target.drop before.length)) (hmatch : target[before.length]? = some c) :
    matchAt target ⟨before ++ ⟨c, .absent⟩ :: after, t⟩ (c, before.length) =
      .ok ⟨before ++ ⟨c, .correct⟩ :: after, t.claim c⟩ := by
  have hleft : 1 ≤ t.left c := hcovers.one_le (by rwa [List.head?_drop])
  rw [matchAt, if_pos hmatch, write_append]
  exact claim_eq_ok hleft

theorem searchAt_of_found {l : MarkedLetter} (after : List MarkedLetter)
    (hfound : l.mark ≠ .correct ∧ 0 < t.left l.letter) :
    searchAt ⟨before ++ l :: after, t⟩ (l.letter, before.length) =
      .ok ⟨before ++ ⟨l.letter, .present⟩ :: after, t.claim l.letter⟩ := by
  rw [searchAt, read_append]
  simp only [bind, Except.bind, if_pos hfound, write_append]
  exact claim_eq_ok hfound.2

theorem searchAt_of_not_found {l : MarkedLetter} (after : List MarkedLetter)
    (hnot : ¬(l.mark ≠ .correct ∧ 0 < t.left l.letter)) :
    searchAt ⟨before ++ l :: after, t⟩ (l.letter, before.length) =
      .ok ⟨before ++ l :: after, t⟩ := by
  rw [searchAt, read_append]
  exact if_neg hnot

/-! ### Going through the places -/

theorem foldlM_cons_ok {step : Sheet → Char × Nat → Except SheetFault Sheet} {s s' : Sheet}
    {place : Char × Nat} (places : List (Char × Nat)) (h : step s place = .ok s') :
    (place :: places).foldlM step s = places.foldlM step s' := by
  rw [List.foldlM_cons, h]
  rfl

/-- From any place on, the first pass does to the sheet what `markExact` does to the guess. -/
theorem foldlM_matchAt (guess : List Char) (before after : List MarkedLetter) (t : Tally)
    (hcovers : t.Covers (target.drop before.length)) :
    (guess.zipIdx before.length).foldlM (matchAt target)
        ⟨before ++ (guess.map (fun c => ⟨c, .absent⟩) ++ after), t⟩ =
      .ok ⟨before ++ ((markExact (target.drop before.length) guess t).1 ++ after),
        (markExact (target.drop before.length) guess t).2⟩ := by
  induction guess generalizing before t with
  | nil => rfl
  | cons c guess ih =>
      rw [List.zipIdx_cons, List.map_cons, List.cons_append, markExact, List.head?_drop,
        List.tail_drop]
      split
      · next hmatch =>
        have hrest : (t.claim c).Covers (target.drop (before.length + 1)) := by
          rw [← List.tail_drop]
          exact hcovers.claim (by rwa [List.head?_drop])
        rw [foldlM_cons_ok _ (matchAt_of_match c _ hcovers hmatch)]
        have hnext := ih (before ++ [⟨c, .correct⟩]) (t.claim c) (by simpa using hrest)
        simpa using hnext
      · next hmatch =>
        have hrest : t.Covers (target.drop (before.length + 1)) := by
          rw [← List.drop_drop]
          exact hcovers.drop 1
        rw [foldlM_cons_ok _ (if_neg hmatch)]
        have hnext := ih (before ++ [⟨c, .absent⟩]) t (by simpa using hrest)
        simpa using hnext

/-- From any place on, the second pass does to the sheet what `markPresent` does. -/
theorem foldlM_searchAt (ls before after : List MarkedLetter) (t : Tally) :
    ((ls.map MarkedLetter.letter).zipIdx before.length).foldlM searchAt
        ⟨before ++ (ls ++ after), t⟩ =
      .ok ⟨before ++ ((markPresent ls t).1 ++ after), (markPresent ls t).2⟩ := by
  induction ls generalizing before t with
  | nil => rfl
  | cons l ls ih =>
      rw [List.map_cons, List.zipIdx_cons, List.cons_append, markPresent]
      split
      · next hfound =>
        rw [foldlM_cons_ok _ (searchAt_of_found _ hfound)]
        have hnext := ih (before ++ [⟨l.letter, .present⟩]) (t.claim l.letter)
        simpa using hnext
      · next hnot =>
        rw [foldlM_cons_ok _ (searchAt_of_not_found _ hnot)]
        have hnext := ih (before ++ [l]) t
        simpa using hnext

/-! ### Both passes -/

/-- The sheet on which the first pass has gone through the first places. -/
theorem matchUpTo_eq_ok (target guess : List Char) (n : Nat) :
    matchUpTo target guess n = .ok
      ⟨(markExact target (guess.take n) (.ofWord target)).1 ++
          (guess.drop n).map fun c => ⟨c, .absent⟩,
        (markExact target (guess.take n) (.ofWord target)).2⟩ := by
  have hblank : blank target guess = ⟨(guess.take n).map (fun c => ⟨c, .absent⟩) ++
      (guess.drop n).map fun c => ⟨c, .absent⟩, .ofWord target⟩ := by
    rw [← List.map_append, List.take_append_drop]
    rfl
  rw [matchUpTo, hblank]
  exact foldlM_matchAt (guess.take n) [] _ _ (Tally.covers_ofWord target)

/-- The sheet on which the second pass has gone through the first places. -/
theorem searchUpTo_eq_ok (target guess : List Char) (n : Nat) :
    let first := markExact target guess (.ofWord target)
    searchUpTo target guess n = .ok
      ⟨(markPresent (first.1.take n) first.2).1 ++ first.1.drop n,
        (markPresent (first.1.take n) first.2).2⟩ := by
  intro first
  have hfirst : matchUpTo target guess guess.length =
      .ok ⟨first.1.take n ++ first.1.drop n, first.2⟩ := by
    rw [matchUpTo_eq_ok, List.take_length, List.drop_length, List.take_append_drop]
    simp [first]
  have hletters : guess.take n = (first.1.take n).map MarkedLetter.letter := by
    rw [List.map_take, letters_markExact]
  rw [searchUpTo, hfirst, hletters]
  exact foldlM_searchAt (first.1.take n) [] _ _

/-- What is left of a letter in the end. -/
theorem left_mark (target guess : List Char) (c : Char) :
    let first := markExact target guess (.ofWord target)
    (markPresent first.1 first.2).2.left c =
      (target.count c : Int) - min (target.count c) (guess.count c) := by
  intro first
  have hfirst : first.2.left c = target.count c - countCorrect c first.1 := by
    rw [left_markExact, Tally.left_ofWord]
  have hle : countCorrect c first.1 ≤ target.count c := countCorrect_markExact_le c
  have hguess : guess.count c = countCorrect c first.1 + countOther c first.1 := by
    rw [← count_letters, letters_markExact]
  rw [left_markPresent c first.1 (by omega), hfirst, hguess]
  omega

/-- No place is looked for in vain, and no letter is claimed in vain. Whenever the first pass comes
to a place, the sheet has this place; and if the target has the same letter there, one of it at
least is left. Whenever the second pass comes to a place, the sheet has this place. In the end the
letters are marked as `mark` says, and of every letter the target had, as many are left as it has
more than the guess. -/
theorem counts_suffice (target guess : String) :
    (∀ (i : Nat) (c : Char), guess.toList[i]? = some c →
      ∃ s, matchUpTo target.toList guess.toList i = .ok s ∧ i < s.letters.length ∧
        (target.toList[i]? = some c → 1 ≤ s.tally.left c)) ∧
    (∀ (i : Nat) (c : Char), guess.toList[i]? = some c →
      ∃ s, searchUpTo target.toList guess.toList i = .ok s ∧ i < s.letters.length) ∧
    ∃ s, searchUpTo target.toList guess.toList guess.toList.length = .ok s ∧
      s.letters = mark target guess ∧
      ∀ c : Char, s.tally.left c = (target.toList.count c : Int) -
        min (target.toList.count c) (guess.toList.count c) := by
  refine ⟨fun i c hplace => ?_, fun i c hplace => ?_, ?_⟩
  · obtain ⟨hi, -⟩ := List.getElem?_eq_some_iff.1 hplace
    refine ⟨_, matchUpTo_eq_ok _ _ i, ?_, fun hmatch => ?_⟩
    · rw [List.length_append, length_markExact, List.length_take, List.length_map,
        List.length_drop]
      omega
    · have hcovers := covers_markExact (guess.toList.take i) (Tally.covers_ofWord target.toList)
      rw [List.length_take_of_le (Nat.le_of_lt hi)] at hcovers
      exact hcovers.one_le (by rwa [List.head?_drop])
  · obtain ⟨hi, -⟩ := List.getElem?_eq_some_iff.1 hplace
    refine ⟨_, searchUpTo_eq_ok _ _ i, ?_⟩
    rw [List.length_append, length_markPresent, List.length_take, List.length_drop,
      length_markExact]
    omega
  · have hwhole := searchUpTo_eq_ok target.toList guess.toList guess.toList.length
    have hlength := length_markExact target.toList guess.toList (.ofWord target.toList)
    simp only [← hlength, List.take_length, List.drop_length, List.append_nil] at hwhole
    rw [hlength] at hwhole
    exact ⟨_, hwhole, rfl, left_mark _ _⟩

/-- The fourth letter of AMMMA is an exact match of which the third one has claimed an M already. In
the end no M is left. -/
theorem counts_suffice_of_mamma :
    "AMMMA".toList[3]? = some 'M' ∧ "MAMMA".toList[3]? = some 'M' ∧
      (∃ s, matchUpTo "MAMMA".toList "AMMMA".toList 3 = .ok s ∧ 3 < s.letters.length ∧
        1 ≤ s.tally.left 'M') ∧
      (∃ s, searchUpTo "MAMMA".toList "AMMMA".toList 3 = .ok s ∧ 3 < s.letters.length) ∧
      ∃ s, searchUpTo "MAMMA".toList "AMMMA".toList 5 = .ok s ∧ s.tally.left 'M' = 0 := by
  have hplace : "AMMMA".toList[3]? = some 'M' := by decide
  have htarget : "MAMMA".toList[3]? = some 'M' := by decide
  obtain ⟨hmatches, hsearches, s, hs, -, hleft⟩ := counts_suffice "MAMMA" "AMMMA"
  obtain ⟨s', hs', hlength, hclaim⟩ := hmatches 3 'M' hplace
  refine ⟨hplace, htarget, ⟨s', hs', hlength, hclaim htarget⟩, hsearches 3 'M' hplace, s, hs, ?_⟩
  rw [hleft]
  decide

end Sheet

end WordDuel
