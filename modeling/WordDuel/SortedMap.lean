/-!
# WordDuel.SortedMap

**Finite maps kept in key order.** A map is the list of its entries, strictly
increasing in the key, so that two maps with the same look-ups are equal
(`SortedMap.ext_get?`) and every listing of a map is in key order.

Rooms are stored by id, scores and statuses by player, words as a map to the
unit type; all of them are this one type.
-/

namespace WordDuel

namespace SortedMap

variable {κ β : Type} [Ord κ]

/-! ### Entry lists -/

/-- Keys come in strictly increasing order. -/
def Increasing (entries : List (κ × β)) : Prop :=
  entries.Pairwise fun a b => compare a.1 b.1 = .lt

/-- The value filed under a key. -/
def find (k : κ) : List (κ × β) → Option β
  | [] => none
  | (k', v) :: rest => if compare k k' = .eq then some v else find k rest

/-- File a value under a key at its place in the order, replacing what was there. -/
def put (k : κ) (v : β) : List (κ × β) → List (κ × β)
  | [] => [(k, v)]
  | (k', v') :: rest =>
    match compare k k' with
    | .lt => (k, v) :: (k', v') :: rest
    | .eq => (k, v) :: rest
    | .gt => (k', v') :: put k v rest

theorem mem_put {k : κ} {v : β} {p : κ × β} {entries : List (κ × β)}
    (h : p ∈ put k v entries) : p = (k, v) ∨ p ∈ entries := by
  induction entries with
  | nil => simpa [put] using h
  | cons q rest ih =>
    obtain ⟨k', v'⟩ := q
    unfold put at h
    split at h
    · simpa using h
    · simp only [List.mem_cons] at h ⊢
      rcases h with h | h
      · exact .inl h
      · exact .inr (.inr h)
    · simp only [List.mem_cons] at h ⊢
      rcases h with h | h
      · exact .inr (.inl h)
      · rcases ih h with h | h
        · exact .inl h
        · exact .inr (.inr h)

/-- A key below the first one is not filed. -/
theorem find_eq_none_of_lt {k : κ} {entries : List (κ × β)}
    (h : ∀ p ∈ entries, compare k p.1 = .lt) : find k entries = none := by
  induction entries with
  | nil => rfl
  | cons q rest ih =>
    have hq := h q (by simp)
    simp [find, hq, ih fun p hp => h p (by simp [hp])]

variable [Std.TransOrd κ] [Std.LawfulEqOrd κ]

theorem Increasing.put (k : κ) (v : β) {entries : List (κ × β)} (h : Increasing entries) :
    Increasing (SortedMap.put k v entries) := by
  induction entries with
  | nil => simp [SortedMap.put, Increasing]
  | cons q rest ih =>
    obtain ⟨k', v'⟩ := q
    obtain ⟨hq, hrest⟩ := List.pairwise_cons.1 h
    unfold SortedMap.put
    split
    · rename_i hlt
      refine List.pairwise_cons.2 ⟨fun p hp => ?_, h⟩
      rcases List.mem_cons.1 hp with rfl | hp
      · exact hlt
      · exact Std.TransCmp.lt_trans hlt (hq p hp)
    · rename_i heq
      obtain rfl := Std.LawfulEqCmp.eq_of_compare heq
      exact List.pairwise_cons.2 ⟨hq, hrest⟩
    · rename_i hgt
      refine List.pairwise_cons.2 ⟨fun p hp => ?_, ih hrest⟩
      rcases mem_put hp with rfl | hp
      · exact Std.OrientedCmp.gt_iff_lt.1 hgt
      · exact hq p hp

theorem find_put (k k' : κ) (v : β) (entries : List (κ × β)) :
    find k' (put k v entries) = if compare k' k = .eq then some v else find k' entries := by
  induction entries with
  | nil => simp [put, find]
  | cons q rest ih =>
    obtain ⟨l, w⟩ := q
    unfold put
    split
    · simp [find]
    · rename_i heq
      obtain rfl := Std.LawfulEqCmp.eq_of_compare heq
      by_cases h : compare k' k = .eq <;> simp [find, h]
    · rename_i hgt
      simp only [find, ih]
      by_cases h : compare k' l = .eq
      · obtain rfl := Std.LawfulEqCmp.eq_of_compare h
        have : compare k' k ≠ .eq := by
          rw [Std.OrientedCmp.gt_iff_lt.1 hgt]; decide
        simp [this]
      · simp [h]

omit [Std.TransOrd κ] in
theorem find_eq_some_iff {k : κ} {v : β} {entries : List (κ × β)} (h : Increasing entries) :
    find k entries = some v ↔ (k, v) ∈ entries := by
  induction entries with
  | nil => simp [find]
  | cons q rest ih =>
    obtain ⟨k', v'⟩ := q
    obtain ⟨hq, hrest⟩ := List.pairwise_cons.1 h
    unfold find
    split
    · rename_i heq
      obtain rfl := Std.LawfulEqCmp.eq_of_compare heq
      constructor
      · rintro ⟨⟩; simp
      · intro hm
        rcases List.mem_cons.1 hm with hm | hm
        · cases hm; rfl
        · have := hq _ hm
          simp at this
    · rename_i hne
      rw [ih hrest]
      constructor
      · intro hm; exact List.mem_cons_of_mem _ hm
      · intro hm
        rcases List.mem_cons.1 hm with hm | hm
        · cases hm
          simp at hne
        · exact hm

/-- The first key of a list is not below all keys of another in which it is found. -/
theorem not_lt_of_find {p q : κ × β} {as bs : List (κ × β)}
    (hq : ∀ r ∈ bs, compare q.1 r.1 = .lt) (h : find p.1 (p :: as) = find p.1 (q :: bs)) :
    compare p.1 q.1 ≠ .lt := by
  intro hlt
  have hnone : find p.1 (q :: bs) = none := by
    refine find_eq_none_of_lt fun r hr => ?_
    rcases List.mem_cons.1 hr with rfl | hr
    · exact hlt
    · exact Std.TransCmp.lt_trans hlt (hq r hr)
  rw [hnone] at h
  simp [find] at h

/-- Entry lists in key order with the same look-ups are the same list. -/
theorem Increasing.eq_of_find {a b : List (κ × β)} (ha : Increasing a) (hb : Increasing b)
    (h : ∀ k, find k a = find k b) : a = b := by
  induction a generalizing b with
  | nil =>
    cases b with
    | nil => rfl
    | cons q rest =>
      have := h q.1
      simp [find] at this
  | cons p as ih =>
    cases b with
    | nil =>
      have := h p.1
      simp [find] at this
    | cons q bs =>
      obtain ⟨hp, has⟩ := List.pairwise_cons.1 ha
      obtain ⟨hq, hbs⟩ := List.pairwise_cons.1 hb
      have hpq : compare p.1 q.1 = .eq := by
        cases hc : compare p.1 q.1 with
        | eq => rfl
        | lt => exact (not_lt_of_find hq (h p.1) hc).elim
        | gt => exact (not_lt_of_find hp (h q.1).symm (Std.OrientedCmp.gt_iff_lt.1 hc)).elim
      obtain ⟨k, v⟩ := p
      obtain ⟨k', v'⟩ := q
      obtain rfl : k = k' := Std.LawfulEqCmp.eq_of_compare hpq
      have hv := h k
      simp only [find, Std.ReflCmp.compare_self, if_true, Option.some.injEq] at hv
      subst hv
      congr 1
      refine ih has hbs fun l => ?_
      by_cases hl : compare l k = .eq
      · obtain rfl := Std.LawfulEqCmp.eq_of_compare hl
        rw [find_eq_none_of_lt hp, find_eq_none_of_lt hq]
      · have := h l
        simpa [find, hl] using this

theorem find_erase (k k' : κ) (entries : List (κ × β)) :
    find k' (entries.filter fun p => compare k p.1 != .eq) =
      if compare k' k = .eq then none else find k' entries := by
  induction entries with
  | nil => simp [find]
  | cons q rest ih =>
    obtain ⟨l, w⟩ := q
    by_cases hl : compare k l = .eq
    · obtain rfl := Std.LawfulEqCmp.eq_of_compare hl
      by_cases h : compare k' k = .eq <;> simp [ih, h, find]
    · by_cases h : compare k' l = .eq
      · obtain rfl := Std.LawfulEqCmp.eq_of_compare h
        have : compare k' k ≠ .eq := fun h' => hl (Std.OrientedCmp.eq_symm h')
        simp [hl, find, this]
      · simp [hl, find, h, ih]

end SortedMap

/-! ### The type of maps -/

/-- A finite map, listed by strictly increasing keys. -/
structure SortedMap (κ β : Type) [Ord κ] where
  /-- The entries in key order. -/
  entries : List (κ × β)
  /-- No key comes twice and none out of order. -/
  sorted : SortedMap.Increasing entries

namespace SortedMap

variable {κ β : Type} [Ord κ]

theorem ext_entries {a b : SortedMap κ β} (h : a.entries = b.entries) : a = b := by
  cases a; cases b; cases h; rfl

instance [DecidableEq κ] [DecidableEq β] : DecidableEq (SortedMap κ β) := fun a b =>
  decidable_of_iff (a.entries = b.entries) ⟨ext_entries, fun h => h ▸ rfl⟩

/-- The map without entries. -/
def empty : SortedMap κ β := ⟨[], List.Pairwise.nil⟩

instance : EmptyCollection (SortedMap κ β) := ⟨empty⟩
instance : Inhabited (SortedMap κ β) := ⟨empty⟩

/-- The value filed under `k`, if any. -/
def get? (m : SortedMap κ β) (k : κ) : Option β := find k m.entries

@[simp] theorem get?_empty (k : κ) : (empty : SortedMap κ β).get? k = none := rfl

/-- Whether something is filed under `k`. -/
def contains (m : SortedMap κ β) (k : κ) : Bool := (m.get? k).isSome

/-- The keys in order. -/
def keys (m : SortedMap κ β) : List κ := m.entries.map Prod.fst

/-- The number of entries. -/
def size (m : SortedMap κ β) : Nat := m.entries.length

/-- Remove what is filed under `k`. -/
def erase (m : SortedMap κ β) (k : κ) : SortedMap κ β :=
  ⟨m.entries.filter fun p => compare k p.1 != .eq, m.sorted.filter _⟩

variable [Std.TransOrd κ] [Std.LawfulEqOrd κ]

/-- File `v` under `k`, replacing what was there. -/
def insert (m : SortedMap κ β) (k : κ) (v : β) : SortedMap κ β :=
  ⟨put k v m.entries, m.sorted.put k v⟩

/-- File entries one after the other; of two with one key the later wins. -/
def insertMany (m : SortedMap κ β) (entries : List (κ × β)) : SortedMap κ β :=
  entries.foldl (fun m p => m.insert p.1 p.2) m

/-- The map of a list of entries; of two with one key the later wins. -/
def ofList (entries : List (κ × β)) : SortedMap κ β := insertMany empty entries

/-- All entries of both maps; on a shared key the second map wins. -/
def union (a b : SortedMap κ β) : SortedMap κ β := a.insertMany b.entries

theorem get?_insert (m : SortedMap κ β) (k k' : κ) (v : β) :
    (m.insert k v).get? k' = if compare k' k = .eq then some v else m.get? k' :=
  find_put k k' v m.entries

@[simp] theorem get?_insert_self (m : SortedMap κ β) (k : κ) (v : β) :
    (m.insert k v).get? k = some v := by simp [get?_insert]

theorem get?_insert_of_ne (m : SortedMap κ β) {k k' : κ} (v : β) (h : k' ≠ k) :
    (m.insert k v).get? k' = m.get? k' := by
  rw [get?_insert, if_neg fun h' => h (Std.LawfulEqCmp.eq_of_compare h')]

theorem get?_erase (m : SortedMap κ β) (k k' : κ) :
    (m.erase k).get? k' = if compare k' k = .eq then none else m.get? k' :=
  find_erase k k' m.entries

@[simp] theorem get?_erase_self (m : SortedMap κ β) (k : κ) : (m.erase k).get? k = none := by
  simp [get?_erase]

theorem get?_erase_of_ne (m : SortedMap κ β) {k k' : κ} (h : k' ≠ k) :
    (m.erase k).get? k' = m.get? k' := by
  rw [get?_erase, if_neg fun h' => h (Std.LawfulEqCmp.eq_of_compare h')]

omit [Std.TransOrd κ] in
theorem get?_eq_some_iff (m : SortedMap κ β) {k : κ} {v : β} :
    m.get? k = some v ↔ (k, v) ∈ m.entries := find_eq_some_iff m.sorted

/-- Filing what a look-up gives for some keys. -/
theorem get?_ofList [DecidableEq κ] {entries : List (κ × β)} {look : κ → Option β}
    (h : ∀ e ∈ entries, look e.1 = some e.2) (k : κ) :
    (ofList entries).get? k = if k ∈ entries.map Prod.fst then look k else none := by
  suffices hmany : ∀ m : SortedMap κ β, (m.insertMany entries).get? k =
      if k ∈ entries.map Prod.fst then look k else m.get? k from hmany empty
  induction entries with
  | nil => intro m; rfl
  | cons e entries ih =>
      intro m
      have hstep : m.insertMany (e :: entries) = (m.insert e.1 e.2).insertMany entries := rfl
      rw [hstep, ih fun e' he' => h e' (List.mem_cons_of_mem e he')]
      by_cases hentries : k ∈ entries.map Prod.fst
      · rw [if_pos hentries, List.map_cons, if_pos (List.mem_cons_of_mem _ hentries)]
      · by_cases hk : k = e.1
        · simp [hk, h e List.mem_cons_self]
        · have hall : k ∉ (e :: entries).map Prod.fst := by
            rw [List.map_cons, List.mem_cons]
            exact not_or.2 ⟨hk, hentries⟩
          rw [if_neg hentries, if_neg hall, get?_insert_of_ne _ _ hk]

/-- Something is filed under the keys of the entries, and where it was before. -/
theorem contains_insertMany (m : SortedMap κ β) (entries : List (κ × β)) (k : κ) :
    (m.insertMany entries).contains k ↔ k ∈ entries.map Prod.fst ∨ m.contains k := by
  induction entries generalizing m with
  | nil => simp [insertMany]
  | cons e entries ih =>
      have hstep : m.insertMany (e :: entries) = (m.insert e.1 e.2).insertMany entries := rfl
      rw [hstep, ih, List.map_cons, List.mem_cons]
      by_cases hk : k = e.1
      · simp [contains, hk]
      · simp [contains, get?_insert_of_ne _ _ hk, hk]

/-- Something is filed under the keys of the entries, and nowhere else. -/
theorem contains_ofList (entries : List (κ × β)) (k : κ) :
    (ofList entries).contains k ↔ k ∈ entries.map Prod.fst := by
  simpa [ofList, contains] using contains_insertMany empty entries k

/-- Something is filed in the union where it is in one of the maps. -/
theorem contains_union_iff (a b : SortedMap κ β) (k : κ) :
    (a.union b).contains k ↔ a.contains k ∨ b.contains k := by
  rw [union, contains_insertMany, or_comm]
  refine or_congr_right ?_
  rw [contains, Option.isSome_iff_exists, List.mem_map]
  constructor
  · rintro ⟨e, he, rfl⟩
    exact ⟨e.2, b.get?_eq_some_iff.2 he⟩
  · rintro ⟨v, hv⟩
    exact ⟨(k, v), b.get?_eq_some_iff.1 hv, rfl⟩

/-- Filing one value under many keys. -/
theorem get?_ofList_const [DecidableEq κ] (keys : List κ) (v : β) (k : κ) :
    (ofList (keys.map (·, v))).get? k = if k ∈ keys then some v else none := by
  let look : κ → Option β := fun _ => some v
  have hlook : ∀ e ∈ keys.map (·, v), look e.1 = some e.2 := by simp [look]
  simpa [Function.comp_def] using get?_ofList hlook k

/-- Filing anew, under some of the keys of another map, what is computed from what was
there. -/
theorem get?_foldl_insert (g : Option β → β) {entries : List (κ × γ)}
    (hsorted : Increasing entries) (p : γ → Bool) (m : SortedMap κ β) (k : κ) :
    (entries.foldl (fun m e => if p e.2 then m.insert e.1 (g (m.get? e.1)) else m) m).get? k =
      if (find k entries).any p then some (g (m.get? k)) else m.get? k := by
  induction entries generalizing m with
  | nil => rfl
  | cons e rest ih =>
      obtain ⟨l, c⟩ := e
      obtain ⟨hl, hrest⟩ := List.pairwise_cons.1 hsorted
      rw [List.foldl_cons, ih hrest]
      by_cases hk : k = l
      · subst hk
        have hnone : find k rest = none := find_eq_none_of_lt hl
        cases hp : p c <;> simp [find, hnone, hp]
      · have hcmp : compare k l ≠ .eq := fun h => hk (Std.LawfulEqCmp.eq_of_compare h)
        cases hp : p c <;> simp [find, hcmp, get?_insert_of_ne _ _ hk]

/-- A map is known by its look-ups. -/
theorem ext_get? {a b : SortedMap κ β} (h : ∀ k, a.get? k = b.get? k) : a = b :=
  ext_entries (a.sorted.eq_of_find b.sorted h)

/-- Entries of a map among which all its keys are give the map back. -/
theorem ofList_eq [DecidableEq κ] {entries : List (κ × β)} {m : SortedMap κ β}
    (h : ∀ e ∈ entries, m.get? e.1 = some e.2)
    (hkeys : ∀ k, m.contains k → k ∈ entries.map Prod.fst) : ofList entries = m := by
  refine ext_get? fun k => ?_
  rw [get?_ofList h]
  split
  · rfl
  · next hk =>
    cases hm : m.get? k with
    | none => rfl
    | some v => exact (hk (hkeys k (by rw [contains, hm]; rfl))).elim

end SortedMap

end WordDuel
