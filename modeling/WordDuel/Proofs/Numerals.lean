import WordDuel.Proofs.Json
/-!
# WordDuel.Proofs.Numerals

**Which texts are read as bounded numerals.** A numeral is read digit by digit, and the reader
stops as soon as the number exceeds the bound. As further digits only make a number larger, it
accepts exactly the texts that denote a number within the bound, however many leading zeros they
have (`readUpTo_eq_ok_iff`).
-/

namespace WordDuel.Decimal

variable {bound n m : Nat} {cs ds : List Char}

/-! ### Rows of digits -/

/-- The number that comes of another one when digits are written behind it. -/
def valueAfter (n : Nat) (ds : List Char) : Nat := ds.foldl (fun n c => n * 10 + digitValue c) n

theorem valueAfter_cons (n : Nat) (c : Char) (ds : List Char) :
    valueAfter n (c :: ds) = valueAfter (n * 10 + digitValue c) ds := by
  rw [valueAfter, List.foldl_cons]
  rfl

theorem le_valueAfter (n : Nat) (ds : List Char) : n ≤ valueAfter n ds := by
  induction ds generalizing n with
  | nil => exact Nat.le_refl n
  | cons c ds ih =>
      have hnext := ih (n * 10 + digitValue c)
      rw [valueAfter_cons]
      omega

theorem value_zeros_append (zeros : Nat) (ds : List Char) :
    value (List.replicate zeros '0' ++ ds) = value ds := by
  induction zeros with
  | zero => rfl
  | succ zeros ih => exact ih

/-! ### Reading -/

theorem push_eq_ok_iff {c : Char} :
    push bound n c = .ok m ↔ c.isDigit ∧ n * 10 + digitValue c = m ∧ m ≤ bound := by
  rw [push]
  by_cases hdigit : c.isDigit
  · by_cases hbound : n * 10 + digitValue c ≤ bound
    · simp only [hdigit, hbound, if_true, Except.ok.injEq, true_and]
      exact ⟨fun h => ⟨h, h ▸ hbound⟩, fun h => h.1⟩
    · simp only [hdigit, hbound, if_true, if_false, reduceCtorEq, true_and, false_iff]
      exact fun h => hbound (h.1 ▸ h.2)
  · simp [hdigit]

theorem foldlM_push_eq_ok_iff (hn : n ≤ bound) : ds.foldlM (push bound) n = .ok m ↔
    (∀ c ∈ ds, c.isDigit) ∧ valueAfter n ds = m ∧ m ≤ bound := by
  induction ds generalizing n with
  | nil =>
      rw [List.foldlM_nil]
      constructor
      · rintro ⟨⟩
        exact ⟨by simp, rfl, hn⟩
      · rintro ⟨-, rfl, -⟩
        rfl
  | cons c ds ih =>
      rw [List.foldlM_cons, List.forall_mem_cons, valueAfter_cons]
      cases hpush : push bound n c with
      | ok next =>
          obtain ⟨hdigit, rfl, hnext⟩ := push_eq_ok_iff.1 hpush
          rw [and_iff_right hdigit]
          exact ih hnext
      | error fault =>
          constructor
          · rintro ⟨⟩
          rintro ⟨⟨hdigit, -⟩, hvalue, hbound⟩
          have hle := le_valueAfter (n * 10 + digitValue c) ds
          have hok : push bound n c = .ok (n * 10 + digitValue c) :=
            push_eq_ok_iff.2 ⟨hdigit, rfl, by omega⟩
          rw [hok] at hpush
          cases hpush

theorem denotes_plus_iff : Denotes ('+' :: ds) n ↔
    ds ≠ [] ∧ (∀ c ∈ ds, c.isDigit) ∧ value ds = n := by
  constructor
  · rintro ⟨ds', rfl | hplus, hne, hdigits, hvalue⟩
    · exact absurd (hdigits '+' List.mem_cons_self) (by decide)
    · obtain rfl := (List.cons.inj hplus).2
      exact ⟨hne, hdigits, hvalue⟩
  · rintro ⟨hne, hdigits, hvalue⟩
    exact ⟨ds, .inr rfl, hne, hdigits, hvalue⟩

theorem denotes_iff_of_not_plus (h : ∀ ds : List Char, cs ≠ '+' :: ds) : Denotes cs n ↔
    cs ≠ [] ∧ (∀ c ∈ cs, c.isDigit) ∧ value cs = n := by
  constructor
  · rintro ⟨ds, rfl | hplus, hne, hdigits, hvalue⟩
    · exact ⟨hne, hdigits, hvalue⟩
    · exact absurd hplus (h ds)
  · rintro ⟨hne, hdigits, hvalue⟩
    exact ⟨cs, .inl rfl, hne, hdigits, hvalue⟩

/-- What is read is what the text denotes, if that is within the bound. -/
theorem readUpTo_eq_ok_iff : readUpTo bound cs = .ok n ↔ Denotes cs n ∧ n ≤ bound := by
  have hfold (ds : List Char) : ds.foldlM (push bound) 0 = .ok n ↔
      (∀ c ∈ ds, c.isDigit) ∧ valueAfter 0 ds = n ∧ n ≤ bound :=
    foldlM_push_eq_ok_iff (Nat.zero_le bound)
  rw [readUpTo.eq_def]
  split
  · simp [denotes_iff_of_not_plus]
  · simp [denotes_plus_iff]
  · next ds hne =>
    rw [hfold, denotes_plus_iff, and_iff_right (fun h => hne h), and_assoc]
    rfl
  · next hnil _ hplus =>
    rw [hfold, denotes_iff_of_not_plus (fun ds h => hplus ds h), and_iff_right (fun h => hnil h),
      and_assoc]
    rfl

/-! ### Writing -/

theorem isDigit_of_mem_padding {zeros n : Nat} {c : Char}
    (h : c ∈ List.replicate zeros '0' ++ digits n) : c.isDigit := by
  rcases List.mem_append.1 h with h | h
  · rw [List.eq_of_mem_replicate h]
    rfl
  · exact isDigit_of_mem_digits h

theorem padding_ne_nil (zeros n : Nat) : List.replicate zeros '0' ++ digits n ≠ [] :=
  List.append_ne_nil_of_right_ne_nil _ Nat.toDigits_ne_nil

/-- A number may be written with leading zeros. -/
theorem denotes_padding (zeros n : Nat) : Denotes (List.replicate zeros '0' ++ digits n) n :=
  ⟨_, .inl rfl, padding_ne_nil zeros n, fun _ hc => isDigit_of_mem_padding hc, by
    rw [value_zeros_append, value_digits]⟩

end WordDuel.Decimal
