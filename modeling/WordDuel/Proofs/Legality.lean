import WordDuel.GuessRules
/-!
# WordDuel.Proofs.Legality

**Which guesses are legal.** A guess is put in upper case before it is checked, and upper
case leaves no lower-case letter behind; so a guess that passes the check consists of the
letters A to Z, although the check itself would let either case pass.
-/

namespace WordDuel

namespace Text

/-! ### Upper case has no lower-case letters -/

/-- Whether a number is not the code point of one of the letters a to z. -/
def OutsideLower (n : Nat) : Prop := n < 97 ∨ 122 < n

instance (n : Nat) : Decidable (OutsideLower n) := inferInstanceAs (Decidable (_ ∨ _))

theorem isLower_eq_false {c : Char} (h : OutsideLower c.toNat) : c.isLower = false := by
  have hlower : c.isLower = (decide (97 ≤ c.val) && decide (c.val ≤ 122)) := rfl
  rw [hlower, Bool.and_eq_false_iff, decide_eq_false_iff_not, decide_eq_false_iff_not]
  rcases h with h | h
  · exact .inl fun hge => absurd (UInt32.le_iff_toNat_le.1 hge) (Nat.not_le.2 h)
  · exact .inr fun hle => absurd (UInt32.le_iff_toNat_le.1 hle) (Nat.not_le.2 h)

theorem outsideLower_ofNat {n : Nat} (h : OutsideLower n) : OutsideLower (Char.ofNat n).toNat := by
  by_cases hn : n.isValidChar
  · have hsame : Char.ofNat n = Char.ofNatAux n hn := dif_pos hn
    rw [hsame]
    exact h
  · have hzero : (Char.ofNat n).toNat = 0 := by rw [Char.ofNat, dif_neg hn]; rfl
    rw [hzero]
    exact .inl (by decide)

theorem outsideLower_toUpper {c : Char} (h : c.toNat < 0x80) : OutsideLower c.toUpper.toNat := by
  have hascii : ∀ n < 0x80, OutsideLower (Char.ofNat n).toUpper.toNat := by decide
  have hc := hascii c.toNat h
  rwa [Char.ofNat_toNat] at hc

theorem outsideLower_of_caseExpansions :
    ∀ p ∈ caseExpansions, ∀ u ∈ p.2, OutsideLower u := by decide

/-- The images of a run lie between those of its ends. -/
theorem outsideLower_of_caseRuns :
    ∀ r ∈ caseRuns, r.image + (r.last - r.first) < 97 ∨ 122 < r.image := by
  decide +kernel

theorem CaseRun.map?_bounds {r : CaseRun} {n u : Nat} (h : r.map? n = some u) :
    r.image ≤ u ∧ u ≤ r.image + (r.last - r.first) := by
  rw [CaseRun.map?] at h
  split at h
  · next hrun =>
    obtain ⟨-, hlast, -⟩ := hrun
    have hu := Option.some.inj h
    omega
  · cases h

theorem outsideLower_of_mem_upperChar {c u : Char} (h : u ∈ upperChar c) :
    OutsideLower u.toNat := by
  rw [upperChar] at h
  split at h
  · next hascii =>
    rw [List.mem_singleton.1 h]
    exact outsideLower_toUpper hascii
  · next hascii =>
    split at h
    · next us hlookup =>
      obtain ⟨n, hn, rfl⟩ := List.mem_map.1 h
      obtain ⟨before, after, htable, -⟩ := List.lookup_eq_some_iff.1 hlookup
      have hmem : (c.toNat, us) ∈ caseExpansions := by
        rw [htable]
        simp
      exact outsideLower_ofNat (outsideLower_of_caseExpansions _ hmem n hn)
    · split at h
      · next n hrun =>
        rw [List.mem_singleton.1 h]
        obtain ⟨r, hr, hmap⟩ := List.exists_of_findSome?_eq_some hrun
        obtain ⟨hlow, hhigh⟩ := CaseRun.map?_bounds hmap
        refine outsideLower_ofNat ?_
        rcases outsideLower_of_caseRuns r hr with hbelow | habove
        · exact .inl (by omega)
        · exact .inr (by omega)
      · rw [List.mem_singleton.1 h]
        exact .inr (by omega)

theorem isLower_of_mem_upper {s : String} {u : Char} (h : u ∈ (upper s).toList) :
    u.isLower = false := by
  rw [toList_upper] at h
  obtain ⟨c, -, hu⟩ := List.mem_flatMap.1 h
  exact isLower_eq_false (outsideLower_of_mem_upperChar hu)

end Text

/-! ### What passes the check -/

/-- A dictionary fails with this when asked for the words of a language. -/
def Dictionary.Reports (dictionary : Dictionary) (language : Language) (failure : Failure) : Prop :=
  dictionary.allowed language = .error failure ∨ dictionary.answers language = .error failure

namespace GuessRules

variable {dictionary : Dictionary} {wordLength : Nat} {guess target : String} {language : Language}

theorem checkLength_eq_ok_iff :
    checkLength wordLength guess target = .ok () ↔
      guess.length = wordLength ∧ guess.length = target.length := by
  rw [checkLength]
  by_cases hlength : guess.length = wordLength
  · by_cases htarget : guess.length = target.length
    · simp [hlength, hlength ▸ htarget]
    · simp [hlength, hlength ▸ htarget]
  · simp [hlength]

theorem check_eq_ok_iff :
    check dictionary wordLength guess target (some language) = .ok () ↔
      guess.length = wordLength ∧ guess.length = target.length ∧ isAlphabetic guess ∧
        ∃ words, dictionary.allowed language = .ok words ∧ words.has (Text.upperAscii guess) := by
  rw [check, ← and_assoc, ← checkLength_eq_ok_iff]
  cases hlength : checkLength wordLength guess target with
  | error refusal => simp
  | ok _ =>
      by_cases halpha : isAlphabetic guess
      · cases hwords : dictionary.allowed language with
        | error failure => simp [halpha]
        | ok words => by_cases hhas : words.has (Text.upperAscii guess) <;> simp [halpha, hhas]
      · simp [halpha]

/-- A guess is turned down for its length, its characters or for not being a word, unless
the dictionary fails. -/
theorem check_eq_error {failure : Failure}
    (h : check dictionary wordLength guess target (some language) = .error failure) :
    (∃ expected actual, failure = .refused (.invalidGuessLength expected actual)) ∨
      failure = .refused (.invalidGuessChars guess) ∨
      (∃ word, failure = .refused (.wordNotAllowed word)) ∨
      dictionary.allowed language = .error failure := by
  rw [check] at h
  split at h
  · next refusal hlength =>
    obtain rfl := Except.error.inj h
    rw [checkLength] at hlength
    split at hlength
    · exact .inl ⟨_, _, congrArg _ (Except.error.inj hlength).symm⟩
    · split at hlength
      · exact .inl ⟨_, _, congrArg _ (Except.error.inj hlength).symm⟩
      · cases hlength
  · split at h
    · exact .inr (.inl (Except.error.inj h).symm)
    · split at h
      · next failure' hwords =>
        obtain rfl := Except.error.inj h
        exact .inr (.inr (.inr hwords))
      · next words hwords =>
        split at h
        · cases h
        · exact .inr (.inr (.inl ⟨_, (Except.error.inj h).symm⟩))

/-- A normalized guess that passes the check consists of the letters A to Z. -/
theorem letters_of_normalize {raw : String} (h : isAlphabetic (normalize raw)) {c : Char}
    (hc : c ∈ (normalize raw).toList) : 'A' ≤ c ∧ c ≤ 'Z' := by
  rw [isAlphabetic, Bool.and_eq_true, List.all_eq_true] at h
  have hletter : (c.isUpper || c.isLower) = true := h.2 c hc
  rw [Text.isLower_of_mem_upper hc, Bool.or_false] at hletter
  exact of_decide_eq_true hletter

end GuessRules

end WordDuel
