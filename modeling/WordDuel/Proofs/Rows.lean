import WordDuel.Storage.Tables
/-!
# WordDuel.Proofs.Rows

**What statements do to the rows of a table.** Rows are told apart by a place, such as the
room or the round that they belong to. A statement replaces the rows at one place and leaves
those elsewhere alone, in whatever order the rows are kept (`Replaced`). Two lists of rows
that agree at every place have the same rows.
-/

namespace WordDuel

namespace Tables

variable {α κ : Type} [DecidableEq κ] {place : α → κ} {k : κ}

/-! ### Rows at a place -/

/-- Of some rows those at a place have been replaced by new ones. -/
structure Replaced (place : α → κ) (k : κ) (new rows rows' : List α) : Prop where
  here : (rows'.filter fun r => place r = k).Perm new
  elsewhere : rows'.filter (fun r => place r ≠ k) = rows.filter fun r => place r ≠ k

theorem filter_eq_self_of_place {new : List α} (h : ∀ r ∈ new, place r = k) :
    new.filter (fun r => place r = k) = new ∧ new.filter (fun r => place r ≠ k) = [] := by
  constructor
  · exact List.filter_eq_self.2 fun r hr => decide_eq_true (h r hr)
  · exact List.filter_eq_nil_iff.2 fun r hr => by simp [h r hr]

theorem Replaced.refl {new rows : List α} (h : (rows.filter fun r => place r = k).Perm new) :
    Replaced place k new rows rows :=
  ⟨h, rfl⟩

/-- Rows are added at a place. -/
theorem Replaced.added {old rows new : List α} (h : (rows.filter fun r => place r = k).Perm old)
    (hnew : ∀ r ∈ new, place r = k) : Replaced place k (old ++ new) rows (rows ++ new) := by
  obtain ⟨hhere, hnowhere⟩ := filter_eq_self_of_place hnew
  constructor
  · rw [List.filter_append, hhere]
    exact h.append_right new
  · rw [List.filter_append, hnowhere, List.append_nil]

/-- The rows at a place are removed, and others added. -/
theorem Replaced.refilled {rows new : List α} (hnew : ∀ r ∈ new, place r = k) :
    Replaced place k new rows (rows.filter (fun r => place r ≠ k) ++ new) := by
  obtain ⟨hhere, hnowhere⟩ := filter_eq_self_of_place hnew
  constructor
  · have hgone : (rows.filter fun r => place r ≠ k).filter (fun r => place r = k) = [] :=
      List.filter_eq_nil_iff.2 fun r hr => by simpa using (List.mem_filter.1 hr).2
    rw [List.filter_append, hhere, hgone]
    exact .refl _
  · rw [List.filter_append, hnowhere, List.filter_filter]
    simp

/-- The only row at a place is overwritten. -/
theorem Replaced.updated {rows : List α} {old new : α}
    (h : rows.filter (fun r => place r = k) = [old]) (hnew : place new = k) :
    Replaced place k [new] rows (rows.map fun r => if place r = k then new else r) := by
  have hplace (r : α) : place (if place r = k then new else r) = k ↔ place r = k := by
    split
    · next hr => exact iff_of_true hnew hr
    · exact Iff.rfl
  constructor
  · rw [List.filter_map]
    simp only [Function.comp_def, hplace]
    rw [h]
    have hold : place old = k := by
      have hmem : old ∈ rows.filter fun r => place r = k := by simp [h]
      simpa using (List.mem_filter.1 hmem).2
    simp [hold]
  · rw [List.filter_map]
    simp only [Function.comp_def, ne_eq, hplace]
    refine (List.map_congr_left fun r hr => ?_).trans (List.map_id _)
    have hr : place r ≠ k := by simpa using (List.mem_filter.1 hr).2
    exact if_neg hr

/-! ### Keys -/

/-- Rows with keys of their own can be added. -/
theorem addRows_eq {key : α → κ} {rows new : List α} (hnodup : (new.map key).Nodup)
    (hnew : ∀ r ∈ new, key r ∉ rows.map key) : addRows key rows new = some (rows ++ new) := by
  induction new generalizing rows with
  | nil => simp [addRows]
  | cons r new ih =>
      obtain ⟨hr, hnodup⟩ := List.nodup_cons.1 hnodup
      have hadd : addRow key rows r = some (rows ++ [r]) :=
        if_neg (hnew r List.mem_cons_self)
      have hrest : addRows key (rows ++ [r]) new = some (rows ++ [r] ++ new) := by
        refine ih hnodup fun r' hr' hmem => ?_
        rw [List.map_append, List.mem_append] at hmem
        rcases hmem with hmem | hmem
        · exact hnew r' (List.mem_cons_of_mem _ hr') hmem
        · rw [← List.mem_singleton.1 hmem] at hr
          exact hr (List.mem_map_of_mem hr')
      show (addRow key rows r).bind (fun rows => addRows key rows new) = _
      rw [hadd]
      show addRows key (rows ++ [r]) new = _
      rw [hrest, List.append_assoc]
      rfl

/-- Rows with keys of their own can be put where all others have been removed, if rows elsewhere
have other keys. -/
theorem addRows_refill {ν : Type} [DecidableEq ν] {key : α → ν} {rows new : List α}
    (hnodup : (new.map key).Nodup) (hnew : ∀ r ∈ new, place r = k)
    (hkey : ∀ r r', key r = key r' → place r = place r') :
    addRows key (rows.filter fun r => place r ≠ k) new =
      some (rows.filter (fun r => place r ≠ k) ++ new) := by
  refine addRows_eq hnodup fun r hr hmem => ?_
  obtain ⟨r', hr', hsame⟩ := List.mem_map.1 hmem
  have helsewhere : place r' ≠ k := of_decide_eq_true (List.mem_filter.1 hr').2
  exact helsewhere ((hkey r' r hsame).trans (hnew r hr))

/-- A row can be added where there is none with its key. -/
theorem addRow_spec (key : α → κ) {rows : List α} (new : α)
    (h : rows.filter (fun r => key r = key new) = []) :
    addRow key rows new = some (rows ++ [new]) ∧
      Replaced key (key new) [new] rows (rows ++ [new]) := by
  constructor
  · refine if_neg fun hmem => ?_
    obtain ⟨r, hr, hkey⟩ := List.mem_map.1 hmem
    exact List.filter_eq_nil_iff.1 h r hr (decide_eq_true hkey)
  · exact Replaced.added (.of_eq h) fun r hr => congrArg key (List.mem_singleton.1 hr)

/-! ### Rows at every place -/

/-- Lists of rows that agree at every place have the same rows. -/
theorem perm_of_filter [DecidableEq α] (place : α → κ) {rows rows' : List α}
    (h : ∀ k, (rows.filter fun r => place r = k).Perm (rows'.filter fun r => place r = k)) :
    rows.Perm rows' := by
  rw [List.perm_iff_count]
  intro r
  have hcount (l : List α) : (l.filter fun r' => place r' = place r).count r = l.count r :=
    List.count_filter (decide_eq_true rfl)
  rw [← hcount rows, (h _).count_eq, hcount]

/-- Lists of rows that agree at every place in a region have the same rows there. -/
theorem perm_of_region {α ρ ν : Type} [DecidableEq α] [DecidableEq ρ] [DecidableEq ν]
    (place : α → ρ × ν) {region : ρ} {rows rows' : List α}
    (h : ∀ n, (rows.filter fun r => place r = (region, n)).Perm
      (rows'.filter fun r => place r = (region, n))) :
    (rows.filter fun r => (place r).1 = region).Perm
      (rows'.filter fun r => (place r).1 = region) := by
  refine perm_of_filter place fun k => ?_
  rw [List.filter_filter, List.filter_filter]
  by_cases hk : k.1 = region
  · have hinside (rows : List α) :
        (rows.filter fun r => decide (place r = k) && decide ((place r).1 = region)) =
          rows.filter fun r => place r = (region, k.2) := by
      refine List.filter_congr fun r _ => ?_
      rw [← hk]
      by_cases hr : place r = k <;> simp [hr]
    rw [hinside, hinside]
    exact h k.2
  · have houtside (rows : List α) :
        (rows.filter fun r => decide (place r = k) && decide ((place r).1 = region)) = [] := by
      refine List.filter_eq_nil_iff.2 fun r _ hr => hk ?_
      simp only [Bool.and_eq_true, decide_eq_true_eq] at hr
      exact hr.1 ▸ hr.2
    rw [houtside, houtside]

/-- Of the rows that come of things with places of their own, those at a place come of the
thing that is there. -/
theorem filter_flatMap_place {β : Type} {home : β → κ} {rowsOf : β → List α} {things : List β}
    (hnodup : (things.map home).Nodup) (hplace : ∀ b ∈ things, ∀ r ∈ rowsOf b, place r = home b)
    (k : κ) : (things.flatMap rowsOf).filter (fun r => place r = k) =
      (things.find? fun b => home b = k).elim [] rowsOf := by
  induction things with
  | nil => rfl
  | cons b things ih =>
      obtain ⟨hb, hnodup⟩ := List.nodup_cons.1 hnodup
      have hrest := ih hnodup fun b hb => hplace b (List.mem_cons_of_mem _ hb)
      have hrows := hplace b List.mem_cons_self
      rw [List.flatMap_cons, List.filter_append, hrest]
      by_cases hk : home b = k
      · have hnone : things.find? (fun b => home b = k) = none := by
          refine List.find?_eq_none.2 fun b' hb' hk' => hb ?_
          rw [hk, ← of_decide_eq_true hk']
          exact List.mem_map_of_mem hb'
        have hhere : (rowsOf b).filter (fun r => place r = k) = rowsOf b :=
          List.filter_eq_self.2 fun r hr => decide_eq_true ((hrows r hr).trans hk)
        rw [hnone, hhere, List.find?_cons_of_pos (by simpa using hk)]
        exact List.append_nil _
      · have hnowhere : (rowsOf b).filter (fun r => place r = k) = [] := by
          refine List.filter_eq_nil_iff.2 fun r hr => ?_
          rw [hrows r hr]
          simpa using hk
        rw [hnowhere, List.find?_cons_of_neg (by simpa using hk), List.nil_append]

/-- The thing at a place is the only one there. -/
theorem find?_home {β : Type} {home : β → κ} {things : List β} (hnodup : (things.map home).Nodup)
    {b : β} (hb : b ∈ things) : things.find? (fun b' => home b' = home b) = some b := by
  induction things with
  | nil => cases hb
  | cons b' things ih =>
      obtain ⟨hb', hnodup⟩ := List.nodup_cons.1 hnodup
      rcases List.mem_cons.1 hb with rfl | hb
      · exact List.find?_cons_of_pos (decide_eq_true rfl)
      · have hne : home b' ≠ home b := fun heq => hb' (heq ▸ List.mem_map_of_mem hb)
        rw [List.find?_cons_of_neg (by simpa using hne), ih hnodup hb]

end Tables

end WordDuel
