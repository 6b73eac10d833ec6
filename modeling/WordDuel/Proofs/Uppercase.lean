import WordDuel.Proofs.Legality
/-!
# WordDuel.Proofs.Uppercase

**Upper case is final.** A letter that is put in upper case either stays what it is or becomes
letters that stay what they are, none of which is white space or a `#` (`upperChar_cases`). So
putting a text in upper case twice is the same as once (`upper_upper`), and it neither makes nor
removes white space at the ends.

The letters that come out of the table of runs are too many to look each of them up. Instead the
runs are compared with each other: what comes out of one lies beyond the other, or between its
letters where it takes every second one.
-/

namespace WordDuel

namespace Text

/-! ### Letters that stay what they are -/

/-- A letter that is its own upper case, and that a word can begin and end with. -/
structure Settled (c : Char) : Prop where
  upperChar : upperChar c = [c]
  isBlank : isBlank c = false
  ne_hash : c ≠ '#'

instance (c : Char) : Decidable (Settled c) :=
  decidable_of_iff (Text.upperChar c = [c] ∧ Text.isBlank c = false ∧ c ≠ '#')
    ⟨fun ⟨hupper, hblank, hhash⟩ => ⟨hupper, hblank, hhash⟩,
      fun ⟨hupper, hblank, hhash⟩ => ⟨hupper, hblank, hhash⟩⟩

/-- Whether no number between two bounds is between two others. -/
def apart (low high first last : Nat) : Bool := Nat.blt high first || Nat.blt last low

/-- Whether a run has none of the code points `low, low + step, …, high`. -/
def CaseRun.avoids (r : CaseRun) (low high step : Nat) : Bool :=
  apart low high r.first r.last ||
    (Nat.beq r.step 2 && (Nat.beq step 2 || Nat.beq low high) && Nat.beq ((low + r.first) % 2) 1)

/-- Whether none of the code points `low, low + step, …, high` is in a table, and all of them are
outside ASCII. -/
def untouched (low high step : Nat) : Bool :=
  caseRuns.all (·.avoids low high step) && caseExpansions.all (fun p => apart low high p.1 p.1) &&
    blankRanges.all (fun r => apart low high r.1 r.2) && Nat.ble 128 low

/-- Whether two bounds are those of some of the letters A to Z. -/
def capitals (low high : Nat) : Bool := Nat.ble 65 low && Nat.ble high 90

theorem apart_iff {low high first last : Nat} :
    apart low high first last ↔ high < first ∨ last < low := by
  rw [apart, Bool.or_eq_true, Nat.blt_eq, Nat.blt_eq]

variable {low high step n : Nat}

theorem CaseRun.map?_of_avoids {r : CaseRun} (h : r.avoids low high step) (hlow : low ≤ n)
    (hhigh : n ≤ high) (hstep : (n - low) % step = 0) : r.map? n = none := by
  simp only [avoids, Bool.or_eq_true, Bool.and_eq_true, apart_iff, Nat.beq_eq] at h
  refine if_neg ?_
  rintro ⟨hfirst, hlast, hplace⟩
  rcases h with hbeyond | ⟨⟨htwo, hsecond⟩, hodd⟩
  · omega
  · -- Every second number against every second letter, from an odd distance.
    rw [htwo] at hplace
    rcases hsecond with hsecond | honly
    · rw [hsecond] at hstep
      omega
    · omega

theorem toNat_ofNat (h : n.isValidChar) : (Char.ofNat n).toNat = n := by
  rw [Char.ofNat, dif_pos h]
  rfl

theorem settled_of_untouched (h : untouched low high step) (hlow : low ≤ n) (hhigh : n ≤ high)
    (hstep : (n - low) % step = 0) : Settled (Char.ofNat n) := by
  simp only [untouched, Bool.and_eq_true, List.all_eq_true, apart_iff, Nat.ble_eq] at h
  obtain ⟨⟨⟨hruns, hexpansions⟩, hblanks⟩, hbeyond⟩ := h
  by_cases hvalid : n.isValidChar
  · have hcode := toNat_ofNat hvalid
    refine ⟨?_, ?_, ?_⟩
    · have hlookup : caseExpansions.lookup n = none := by
        rw [List.lookup_eq_none_iff]
        intro p hp
        have hother := hexpansions p hp
        have hne : n ≠ p.1 := by omega
        simp [hne]
      have hfind : caseRuns.findSome? (·.map? n) = none := by
        rw [List.findSome?_eq_none_iff]
        intro r hr
        exact CaseRun.map?_of_avoids (hruns r hr) hlow hhigh hstep
      rw [upperChar, hcode, if_neg (by omega), hlookup]
      dsimp only
      rw [hfind]
    · rw [isBlank, hcode, ← Bool.not_eq_true, List.any_eq_true]
      rintro ⟨r, hr, hwithin⟩
      have hother := hblanks r hr
      rw [Bool.and_eq_true, decide_eq_true_eq, decide_eq_true_eq] at hwithin
      omega
    · intro hhash
      rw [hhash] at hcode
      have hsmall : n = 35 := hcode.symm
      omega
  · have hzero : Char.ofNat n = Char.ofNat 0 := by
      rw [Char.ofNat, dif_neg hvalid]
      rfl
    rw [hzero]
    decide

theorem settled_of_capitals (h : capitals low high) (hlow : low ≤ n) (hhigh : n ≤ high) :
    Settled (Char.ofNat n) := by
  have hall : ∀ n < 91, 65 ≤ n → Settled (Char.ofNat n) := by decide
  rw [capitals, Bool.and_eq_true, Nat.ble_eq, Nat.ble_eq] at h
  exact hall n (by omega) (by omega)

/-! ### The tables -/

theorem settled_of_caseRuns : ∀ r ∈ caseRuns,
    capitals r.image (r.image + (r.last - r.first)) ||
      untouched r.image (r.image + (r.last - r.first)) r.step := by
  rw [← List.all_eq_true]
  decide +kernel

theorem settled_of_caseExpansions : ∀ p ∈ caseExpansions,
    !p.2.isEmpty && p.2.all fun n => capitals n n || untouched n n 2 := by
  rw [← List.all_eq_true]
  decide +kernel

/-- What comes out of a run is settled. -/
theorem settled_of_map? {r : CaseRun} {u : Nat} (hr : r ∈ caseRuns) (h : r.map? n = some u) :
    Settled (Char.ofNat u) := by
  obtain ⟨hlow, hhigh⟩ := CaseRun.map?_bounds h
  rcases Bool.or_eq_true_iff.1 (settled_of_caseRuns r hr) with hcapitals | huntouched
  · exact settled_of_capitals hcapitals hlow hhigh
  · refine settled_of_untouched huntouched hlow hhigh ?_
    rw [CaseRun.map?] at h
    split at h
    · next hrun =>
      have hu := Option.some.inj h
      rw [← hu, Nat.add_sub_cancel_left]
      exact hrun.2.2
    · cases h

/-- What a letter expands to is something, and is settled. -/
theorem settled_of_lookup {us : List Nat} (h : caseExpansions.lookup n = some us) :
    us ≠ [] ∧ ∀ u ∈ us, Settled (Char.ofNat u) := by
  obtain ⟨before, after, htable, -⟩ := List.lookup_eq_some_iff.1 h
  have hmem : (n, us) ∈ caseExpansions := by
    rw [htable]
    simp
  have hsome := settled_of_caseExpansions (n, us) hmem
  rw [Bool.and_eq_true, List.all_eq_true] at hsome
  refine ⟨by simpa using hsome.1, ?_⟩
  intro u hu
  rcases Bool.or_eq_true_iff.1 (hsome.2 u hu) with hcapitals | huntouched
  · exact settled_of_capitals hcapitals (Nat.le_refl u) (Nat.le_refl u)
  · exact settled_of_untouched huntouched (Nat.le_refl u) (Nat.le_refl u) (by simp)

/-- A letter stays what it is, or becomes letters that stay what they are. -/
theorem upperChar_cases (c : Char) :
    upperChar c = [c] ∨ upperChar c ≠ [] ∧ ∀ u ∈ upperChar c, Settled u := by
  rw [upperChar]
  split
  · next hascii =>
    have hall : ∀ n < 0x80, (Char.ofNat n).toUpper = Char.ofNat n ∨
        Settled (Char.ofNat n).toUpper := by
      decide
    have hc := hall c.toNat hascii
    rw [Char.ofNat_toNat] at hc
    rcases hc with hsame | hsettled
    · exact .inl (congrArg (fun u => [u]) hsame)
    · exact .inr (by simpa using hsettled)
  · split
    · next us hlookup =>
      obtain ⟨hsome, hsettled⟩ := settled_of_lookup hlookup
      refine .inr ⟨by simpa using hsome, ?_⟩
      intro u hu
      obtain ⟨n, hn, rfl⟩ := List.mem_map.1 hu
      exact hsettled n hn
    · split
      · next u hfind =>
        obtain ⟨r, hr, hmap⟩ := List.exists_of_findSome?_eq_some hfind
        exact .inr (by simpa using settled_of_map? hr hmap)
      · exact .inl rfl

theorem upperChar_ne_nil (c : Char) : upperChar c ≠ [] := by
  rcases upperChar_cases c with hsame | ⟨hsome, -⟩
  · rw [hsame]
    exact List.cons_ne_nil _ _
  · exact hsome

/-- What settled letters have, and a letter has, its upper case has. -/
theorem of_mem_upperChar {P : Char → Prop} (hsettled : ∀ u, Settled u → P u) {c u : Char}
    (hc : P c) (hu : u ∈ upperChar c) : P u := by
  rcases upperChar_cases c with hsame | ⟨-, hall⟩
  · rw [hsame] at hu
    rw [List.mem_singleton.1 hu]
    exact hc
  · exact hsettled u (hall u hu)

theorem upperChar_of_mem_upperChar {c u : Char} (hu : u ∈ upperChar c) : upperChar u = [u] := by
  rcases upperChar_cases c with hsame | ⟨-, hall⟩
  · rw [hsame] at hu
    rw [List.mem_singleton.1 hu]
    exact hsame
  · exact (hall u hu).upperChar

/-! ### Texts -/

/-- A text in upper case stays what it is. -/
theorem upper_upper (s : String) : upper (upper s) = upper s := by
  apply String.toList_inj.1
  have hstay : ∀ us : List Char, (∀ u ∈ us, upperChar u = [u]) → us.flatMap upperChar = us := by
    intro us hus
    induction us with
    | nil => rfl
    | cons u us ih =>
        rw [List.flatMap_cons, hus u (by simp), ih fun u hu => hus u (by simp [hu])]
        rfl
  rw [toList_upper (upper s), hstay]
  intro u hu
  rw [toList_upper] at hu
  obtain ⟨c, -, hu⟩ := List.mem_flatMap.1 hu
  exact upperChar_of_mem_upperChar hu

theorem head?_flatMap_upperChar {cs : List Char} {u : Char}
    (h : (cs.flatMap upperChar).head? = some u) : ∃ c, cs.head? = some c ∧ u ∈ upperChar c := by
  cases cs with
  | nil => cases h
  | cons c cs =>
      obtain ⟨v, vs, hupper⟩ := List.exists_cons_of_ne_nil (upperChar_ne_nil c)
      rw [List.flatMap_cons, hupper, List.cons_append, List.head?_cons] at h
      rw [← Option.some.inj h]
      exact ⟨c, rfl, by simp [hupper]⟩

theorem getLast?_flatMap_upperChar {cs : List Char} {u : Char}
    (h : (cs.flatMap upperChar).getLast? = some u) :
    ∃ c, cs.getLast? = some c ∧ u ∈ upperChar c := by
  rcases List.eq_nil_or_concat cs with rfl | ⟨before, c, rfl⟩
  · cases h
  · rw [List.concat_eq_append] at h ⊢
    have hlast := List.getLast?_eq_some_getLast (upperChar_ne_nil c)
    rw [List.flatMap_append, List.flatMap_singleton, List.getLast?_append, hlast,
      Option.some_or] at h
    exact ⟨c, List.getLast?_concat, Option.some.inj h ▸ List.getLast_mem (upperChar_ne_nil c)⟩

end Text

end WordDuel
