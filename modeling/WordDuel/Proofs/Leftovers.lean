import WordDuel.Proofs.Waiting
/-!
# WordDuel.Proofs.Leftovers

**Which entries stay behind.** An entry of the table is dropped by the last user that prunes. A
user that stops waiting and is gone does not prune, so the entry stays if it was the last one: this
happens when the mutex was free already, and it is the only way in which it happens
(`LockTable.forsaken_act?_iff`). A forsaken entry stays until the key is asked for again.
-/

namespace WordDuel

namespace LockTable

/-- A key is filed, and nobody has anything to do with it. -/
structure Forsaken (t : LockTable) (key : String) : Prop where
  filed : ∃ mutex, t.entries.get? key = some mutex
  unused : ∀ user use, t.use? user = some use → use.key ≠ key

variable {t t' : LockTable} {user : LockUser} {key k : String}

/-! ### What acts do to entries and users -/

/-- Nothing else is filed when the mutex of a key is made. -/
theorem get?_of_mutexOf {mutex : MutexId} (hk : k ≠ key)
    (h : (t.mutexOf key).2.entries.get? k = some mutex) : t.entries.get? k = some mutex := by
  rw [mutexOf] at h
  split at h
  · exact h
  · rwa [SortedMap.get?_insert_of_ne _ _ hk] at h

theorem entries_arrive? (h : t.arrive? user key = some t') :
    t'.entries = (t.mutexOf key).2.entries := by
  rw [arrive?] at h
  split at h
  · cases h
  · exact (congrArg entries (Option.some.inj h)).symm

/-- What is filed under a key is the same when somebody asks for another. -/
theorem get?_arrive?_of_ne (h : t.arrive? user key = some t') (hk : k ≠ key) :
    t'.entries.get? k = t.entries.get? k := by
  obtain ⟨-, hkept, -⟩ := arrive?_eq_some h
  cases hfiled : t.entries.get? k with
  | some mutex => exact hkept k mutex hfiled
  | none =>
      rw [Option.eq_none_iff_forall_ne_some]
      intro mutex hfiled'
      rw [entries_arrive? h] at hfiled'
      cases hfiled.symm.trans (get?_of_mutexOf hk hfiled')

theorem get?_pruneKey_of_ne (hk : k ≠ key) :
    (t.pruneKey key).entries.get? k = t.entries.get? k := by
  rw [pruneKey]
  split
  · split
    · rfl
    · exact SortedMap.get?_erase_of_ne _ hk
  · rfl

/-- An entry that is left when its key is pruned belongs to a mutex that somebody refers to. -/
theorem isReferenced_of_pruneKey {mutex : MutexId}
    (h : (t.pruneKey key).entries.get? key = some mutex) : t.isReferenced mutex := by
  have hfiled := get?_of_pruneKey h
  rw [pruneKey, hfiled] at h
  dsimp only at h
  split at h
  · next hreferenced => exact hreferenced
  · cases (SortedMap.get?_erase_self t.entries key).symm.trans h

/-- It is all the same to a key whether one user stands otherwise, if the user has as much to do
with the key as before. -/
theorem forsaken_iff {use? : Option LockUse}
    (hentry : t'.entries.get? key = t.entries.get? key)
    (huses : ∀ v, t'.use? v = if v = user then use? else t.use? v)
    (hkey : (∃ use, use? = some use ∧ use.key = key) ↔
      ∃ use, t.use? user = some use ∧ use.key = key) :
    t'.Forsaken key ↔ t.Forsaken key := by
  have hother {v : LockUser} (hv : v ≠ user) : t'.use? v = t.use? v := (huses v).trans (if_neg hv)
  have huser : t'.use? user = use? := (huses user).trans (if_pos rfl)
  constructor <;> rintro ⟨hfiled, hunused⟩
  · refine ⟨hentry ▸ hfiled, fun v use hv hkeyed => ?_⟩
    by_cases hvu : v = user
    · subst hvu
      obtain ⟨use', huse', hkeyed'⟩ := hkey.2 ⟨use, hv, hkeyed⟩
      exact hunused v use' (huser.trans huse') hkeyed'
    · exact hunused v use ((hother hvu).trans hv) hkeyed
  · refine ⟨hentry ▸ hfiled, fun v use hv hkeyed => ?_⟩
    by_cases hvu : v = user
    · subst hvu
      obtain ⟨use', huse', hkeyed'⟩ := hkey.1 ⟨use, huser.symm.trans hv, hkeyed⟩
      exact hunused v use' huse' hkeyed'
    · exact hunused v use ((hother hvu).symm.trans hv) hkeyed

/-- A key that its pruning leaves in the table is used. -/
theorem not_forsaken_of_pruned (hsound : t.Sound) (htidy : t.Tidy) :
    ¬((t.forget user).pruneKey key).Forsaken key := by
  rintro ⟨⟨mutex, hfiled⟩, hunused⟩
  obtain ⟨⟨other, use⟩, hmem, hmutex⟩ := List.any_eq_true.1 (isReferenced_of_pruneKey hfiled)
  obtain ⟨hmem, hne⟩ := List.mem_filter.1 hmem
  have huse : t.use? other = some use := htidy.use?_of_mem hmem
  have hother : ((t.forget user).pruneKey key).use? other = some use := by
    rw [use?_pruneKey, use?_forget, if_neg (by simpa using hne), huse]
  have hkeyed := hsound.filed other use mutex huse (of_decide_eq_true hmutex)
  have hfiled' : (t.forget user).entries.get? key = some mutex := get?_of_pruneKey hfiled
  exact hunused other use hother (htidy.filed _ _ _ hkeyed hfiled')

/-- A key is forsaken when somebody who waited for it is gone, if nobody else has to do with
it. -/
theorem forsaken_forget_iff (hsound : t.Sound) {mutex : MutexId}
    (huse : t.use? user = some (.waiting key mutex)) :
    (t.forget user).Forsaken key ↔
      ∀ other use, t.use? other = some use → use.key = key → other = user := by
  constructor
  · rintro ⟨-, hunused⟩ other use hother hkeyed
    refine Decidable.byContradiction fun hne => hunused other use ?_ hkeyed
    rw [use?_forget, if_neg hne, hother]
  · intro honly
    refine ⟨⟨mutex, hsound.filed user _ mutex huse rfl⟩, fun other use hother hkeyed => ?_⟩
    rw [use?_forget] at hother
    split at hother
    · cases hother
    · next hne => exact hne (honly other use hother hkeyed)

/-! ### How a key comes to be forsaken -/

/-- A key is forsaken after an act if it was before and is not asked for, or if its only user
waited for it and is gone. -/
theorem forsaken_act?_iff (hsound : t.Sound) (htidy : t.Tidy) {act : LockAct}
    (hact : t.act? act = some t') (key : String) :
    t'.Forsaken key ↔ (t.Forsaken key ∧ ∀ user, act ≠ .arrive user key) ∨
      ∃ user mutex, act = .vanish user ∧ t.use? user = some (.waiting key mutex) ∧
        ∀ other use, t.use? other = some use → use.key = key → other = user := by
  cases act with
  | arrive user k =>
      obtain ⟨hnew, -, mutex, -, huses⟩ := arrive?_eq_some hact
      by_cases hk : key = k
      · subst hk
        constructor
        · rintro ⟨-, hunused⟩
          exact absurd rfl (hunused user (.waiting key mutex) (by rw [huses, if_pos rfl]))
        · rintro (⟨-, hunasked⟩ | ⟨_, _, hvanish, -⟩)
          · exact absurd rfl (hunasked user)
          · cases hvanish
      · have hentry := get?_arrive?_of_ne hact hk
        rw [forsaken_iff hentry huses (by simp [hnew, LockUse.key, Ne.symm hk])]
        simp [Ne.symm hk]
  | obtain user =>
      obtain ⟨k, mutex, huse, -, hentries, huses⟩ := obtain?_eq_some hact
      rw [forsaken_iff (by rw [hentries]) huses (by simp [huse, LockUse.key])]
      simp
  | letGo user =>
      obtain ⟨use, huse, hentries, huses⟩ := letGo?_eq_some hact
      have hkey : (LockUse.leaving use.key).key = use.key := rfl
      rw [forsaken_iff (by rw [hentries]) huses (by simp [huse, hkey])]
      simp
  | prune user =>
      obtain ⟨k, huse, rfl, huses⟩ := prune?_eq_some hact
      by_cases hk : key = k
      · subst hk
        have hunforsaken : ¬t.Forsaken key := fun h => h.unused user _ huse rfl
        simp [not_forsaken_of_pruned hsound htidy, hunforsaken]
      · have hentry : ((t.forget user).pruneKey k).entries.get? key = t.entries.get? key :=
          get?_pruneKey_of_ne hk
        rw [forsaken_iff hentry huses (by simp [huse, LockUse.key, Ne.symm hk])]
        simp
  | vanish user =>
      obtain ⟨k, mutex, huse, rfl⟩ := vanish?_eq_some hact
      by_cases hk : key = k
      · subst hk
        rw [forsaken_forget_iff hsound huse]
        constructor
        · exact fun honly => .inr ⟨user, mutex, rfl, huse, honly⟩
        · rintro (⟨hforsaken, -⟩ | ⟨_, _, hvanish, -, honly⟩)
          · exact absurd rfl (hforsaken.unused user _ huse)
          · cases hvanish
            exact honly
      · have hentry : (t.forget user).entries.get? key = t.entries.get? key := rfl
        rw [forsaken_iff hentry (use?_forget t user) (by simp [huse, LockUse.key, Ne.symm hk])]
        constructor
        · exact fun h => .inl ⟨h, fun _ hact => by cases hact⟩
        · rintro (⟨hforsaken, -⟩ | ⟨_, _, hvanish, huse', -⟩)
          · exact hforsaken
          · cases hvanish
            cases huse.symm.trans huse'
            exact absurd rfl hk

/-- As long as nobody who waits is gone without a trace, every entry has a user. -/
theorem not_forsaken_of_run? {acts : List LockAct} (hrun : empty.run? acts = some t)
    (hstay : ∀ user, .vanish user ∉ acts) (key : String) : ¬t.Forsaken key := by
  suffices hall : ∀ start : LockTable, start.Sound → start.Tidy → ¬start.Forsaken key →
      start.run? acts = some t → ¬t.Forsaken key from
    hall empty sound_empty tidy_empty (fun ⟨⟨_, hfiled⟩, _⟩ => by cases hfiled) hrun
  clear hrun
  induction acts with
  | nil =>
      intro start _ _ hnot hrun
      exact Option.some.inj hrun ▸ hnot
  | cons act acts ih =>
      intro start hsound htidy hnot hrun
      rw [run?_cons] at hrun
      obtain ⟨after, hact, hrun⟩ := Option.bind_eq_some_iff.1 hrun
      refine ih (fun user hmem => hstay user (List.mem_cons_of_mem _ hmem)) after
        (hsound.act? hact) (htidy.act? hact) ?_ hrun
      rw [forsaken_act?_iff hsound htidy hact]
      rintro (⟨hforsaken, -⟩ | ⟨user, _, rfl, -⟩)
      · exact hnot hforsaken
      · exact hstay user List.mem_cons_self

/-- The lock is handed to a user that is gone before it takes it. -/
example : (empty.run? [.arrive 0 "room:a", .obtain 0, .arrive 1 "room:a", .letGo 0, .prune 0,
    .vanish 1]).map (fun t => (t.registered, t.uses.length)) = some (1, 0) := by decide +kernel

end LockTable

end WordDuel
