import WordDuel.Lock.Table
/-!
# WordDuel.Proofs.Locks

**No two users have the same mutex.** In a sound table whoever refers to a mutex refers to
the one that is filed under its key, and nobody else has the mutex that it has. Every act
keeps a table sound: a mutex is only given to a user when nobody has it, and an entry is
only dropped when nobody refers to it. So one user at a time has the lock of a key.
-/

namespace WordDuel

namespace LockTable

/-! ### How users stand after an act -/

theorem lookup_map_turn (uses : List (LockUser × LockUse)) (user v : LockUser) (use : LockUse) :
    (uses.map fun p => if p.1 = user then (user, use) else p).lookup v =
      if v = user then (uses.lookup user).map fun _ => use else uses.lookup v := by
  induction uses with
  | nil => by_cases hv : v = user <;> simp [hv]
  | cons p uses ih =>
      obtain ⟨w, other⟩ := p
      by_cases hw : w = user
      · subst hw
        by_cases hv : v = w
        · simp [hv]
        · have hne : (v == w) = false := beq_eq_false_iff_ne.2 hv
          simpa [List.lookup_cons, hne, hv] using ih
      · by_cases hv : v = w
        · simp [hv, hw]
        · have hne : (v == w) = false := beq_eq_false_iff_ne.2 hv
          have hne' : (user == w) = false := beq_eq_false_iff_ne.2 (Ne.symm hw)
          simpa [List.lookup_cons, hne, hne', hw] using ih

theorem use?_turn (t : LockTable) (user v : LockUser) (use : LockUse) :
    (t.turn user use).use? v = if v = user then (t.use? user).map fun _ => use else t.use? v :=
  lookup_map_turn t.uses user v use

theorem use?_forget (t : LockTable) (user v : LockUser) :
    (t.forget user).use? v = if v = user then none else t.use? v := by
  show (t.uses.filter fun p => p.1 ≠ user).lookup v = if v = user then none else t.uses.lookup v
  induction t.uses with
  | nil => by_cases hv : v = user <;> simp [hv]
  | cons p uses ih =>
      obtain ⟨w, other⟩ := p
      by_cases hw : w = user
      · by_cases hv : v = user
        · simpa [hw, hv] using ih
        · have hne : (v == user) = false := beq_eq_false_iff_ne.2 hv
          simpa [hw, hv, List.lookup_cons, hne] using ih
      · by_cases hv : v = w
        · simp [hv, hw]
        · have hne : (v == w) = false := beq_eq_false_iff_ne.2 hv
          simpa [hw, List.lookup_cons, hne] using ih

theorem use?_pruneKey (t : LockTable) (key : String) (v : LockUser) :
    (t.pruneKey key).use? v = t.use? v := by
  rw [pruneKey]
  split
  · split <;> rfl
  · rfl

theorem mem_uses_of_use? {t : LockTable} {user : LockUser} {use : LockUse}
    (h : t.use? user = some use) : (user, use) ∈ t.uses := by
  obtain ⟨before, after, huses, -⟩ := List.lookup_eq_some_iff.1 h
  rw [huses]
  simp

theorem use?_append (t : LockTable) (user v : LockUser) (use : LockUse)
    (hnew : t.use? user = none) :
    (t.uses ++ [(user, use)]).lookup v = if v = user then some use else t.use? v := by
  rw [List.lookup_append]
  by_cases hv : v = user
  · subst hv
    have hnone : t.uses.lookup v = none := hnew
    simp [hnone]
  · have hne : (v == user) = false := beq_eq_false_iff_ne.2 hv
    simp [hv, List.lookup_cons, hne, use?]

/-! ### What an act takes and does -/

section Acts

variable {t t' : LockTable} {user : LockUser} {key : String}

theorem mutexOf_spec (t : LockTable) (key : String) :
    (t.mutexOf key).2.uses = t.uses ∧
      (t.mutexOf key).2.entries.get? key = some (t.mutexOf key).1 ∧
      ∀ k mutex, t.entries.get? k = some mutex →
        (t.mutexOf key).2.entries.get? k = some mutex := by
  rw [mutexOf]
  split
  · next mutex hmutex => exact ⟨rfl, hmutex, fun k m hm => hm⟩
  · next hnone =>
    refine ⟨rfl, SortedMap.get?_insert_self _ _ _, fun k m hm => ?_⟩
    have hk : k ≠ key := by
      rintro rfl
      rw [hnone] at hm
      cases hm
    rw [SortedMap.get?_insert_of_ne _ _ hk, hm]

/-- Who arrives is new, and waits for the mutex that is filed then. -/
theorem arrive?_eq_some (h : t.arrive? user key = some t') :
    t.use? user = none ∧
      (∀ k mutex, t.entries.get? k = some mutex → t'.entries.get? k = some mutex) ∧
      ∃ mutex, t'.entries.get? key = some mutex ∧
        ∀ v, t'.use? v = if v = user then some (.waiting key mutex) else t.use? v := by
  rw [arrive?] at h
  split at h
  · cases h
  · next hnew =>
    obtain rfl := Option.some.inj h
    have hnone : t.use? user = none := by simpa using hnew
    obtain ⟨huses, hfiled, hkept⟩ := mutexOf_spec t key
    refine ⟨hnone, hkept, _, hfiled, ?_⟩
    intro v
    show ((t.mutexOf key).2.uses ++ [(user, LockUse.waiting key (t.mutexOf key).1)]).lookup v = _
    rw [huses, use?_append t user v _ hnone]

/-- Who gets a mutex has waited for it, and nobody has it. -/
theorem obtain?_eq_some (h : t.obtain? user = some t') :
    ∃ key mutex, t.use? user = some (.waiting key mutex) ∧ t.isFree mutex ∧
      t'.entries = t.entries ∧
      ∀ v, t'.use? v = if v = user then some (.holding key mutex) else t.use? v := by
  rw [obtain?] at h
  split at h
  · next key mutex huse =>
    split at h
    · next hfree =>
      obtain rfl := Option.some.inj h
      refine ⟨key, mutex, huse, hfree, rfl, ?_⟩
      intro v
      rw [use?_turn, huse, Option.map_some]
    · cases h
  · cases h

/-- Who lets go of a mutex has waited for it or has had it. -/
theorem letGo?_eq_some (h : t.letGo? user = some t') :
    ∃ use, t.use? user = some use ∧ t'.entries = t.entries ∧
      ∀ v, t'.use? v = if v = user then some (.leaving use.key) else t.use? v := by
  have hturned {use : LockUse} (huse : t.use? user = some use) (v : LockUser) :
      (t.turn user (.leaving use.key)).use? v =
        if v = user then some (.leaving use.key) else t.use? v := by
    rw [use?_turn, huse, Option.map_some]
  rw [letGo?] at h
  split at h
  · next key mutex huse =>
    obtain rfl := Option.some.inj h
    exact ⟨_, huse, rfl, hturned huse⟩
  · next key mutex huse =>
    obtain rfl := Option.some.inj h
    exact ⟨_, huse, rfl, hturned huse⟩
  · cases h

/-- Who prunes the table has let go. -/
theorem prune?_eq_some (h : t.prune? user = some t') :
    ∃ key, t.use? user = some (.leaving key) ∧ t' = (t.forget user).pruneKey key ∧
      ∀ v, t'.use? v = if v = user then none else t.use? v := by
  rw [prune?] at h
  split at h
  · next key huse =>
    obtain rfl := Option.some.inj h
    refine ⟨key, huse, rfl, ?_⟩
    intro v
    rw [use?_pruneKey, use?_forget]
  · cases h

theorem vanish?_eq_some (h : t.vanish? user = some t') :
    ∃ key mutex, t.use? user = some (.waiting key mutex) ∧ t' = t.forget user := by
  rw [vanish?] at h
  split at h
  · next key mutex huse => exact ⟨key, mutex, huse, (Option.some.inj h).symm⟩
  · cases h

end Acts

/-! ### Soundness -/

/-- Users refer to the mutexes that are filed, and no two have the same. -/
structure Sound (t : LockTable) : Prop where
  /-- The mutex that a user refers to is filed under the user's key. -/
  filed : ∀ user use mutex, t.use? user = some use → use.mutex? = some mutex →
    t.entries.get? use.key = some mutex
  /-- A mutex is in the hands of one user at most. -/
  exclusive : ∀ user user' use use' mutex, t.use? user = some use → t.use? user' = some use' →
    use.held? = some mutex → use'.held? = some mutex → user = user'

theorem sound_empty : empty.Sound where
  filed user use mutex huse := by cases huse
  exclusive user user' use use' mutex huse := by cases huse

theorem held?_ne_of_isFree {t : LockTable} {mutex : MutexId} (hfree : t.isFree mutex)
    {user : LockUser} {use : LockUse} (huse : t.use? user = some use) :
    use.held? ≠ some mutex := by
  have hall := List.all_eq_true.1 hfree (user, use) (mem_uses_of_use? huse)
  simpa using hall

/-- What is left to be shown when one user comes to stand otherwise. -/
theorem Sound.of_turned {t t' : LockTable} (h : t.Sound) {user : LockUser} {use? : Option LockUse}
    (huses : ∀ v, t'.use? v = if v = user then use? else t.use? v)
    (hothers : ∀ v use mutex, v ≠ user → t.use? v = some use → use.mutex? = some mutex →
      t'.entries.get? use.key = some mutex)
    (hfiled : ∀ use mutex, use? = some use → use.mutex? = some mutex →
      t'.entries.get? use.key = some mutex)
    (hfree : ∀ use mutex, use? = some use → use.held? = some mutex → t.isFree mutex) :
    t'.Sound where
  filed v use mutex huse hmutex := by
    rw [huses] at huse
    split at huse
    · exact hfiled use mutex huse hmutex
    · next hv => exact hothers v use mutex hv huse hmutex
  exclusive v v' use use' mutex huse huse' hheld hheld' := by
    rw [huses] at huse huse'
    split at huse
    · next hv =>
      split at huse'
      · next hv' => rw [hv, hv']
      · exact (held?_ne_of_isFree (hfree use mutex huse hheld) huse' hheld').elim
    · split at huse'
      · exact (held?_ne_of_isFree (hfree use' mutex huse' hheld') huse hheld).elim
      · exact h.exclusive v v' use use' mutex huse huse' hheld hheld'

/-- Entries that are referred to stay when a key is pruned. -/
theorem get?_entries_pruneKey {t : LockTable} {key : String} {v : LockUser} {use : LockUse}
    {mutex : MutexId} (huse : t.use? v = some use) (hmutex : use.mutex? = some mutex)
    (hfiled : t.entries.get? use.key = some mutex) :
    (t.pruneKey key).entries.get? use.key = some mutex := by
  rw [pruneKey]
  split
  · next filed hentry =>
    split
    · exact hfiled
    · next hunused =>
      have hkey : use.key ≠ key := by
        intro hkey
        rw [hkey, hentry] at hfiled
        obtain rfl := Option.some.inj hfiled
        refine hunused (List.any_eq_true.2 ⟨(v, use), mem_uses_of_use? huse, ?_⟩)
        simpa using hmutex
      rw [← hfiled]
      exact SortedMap.get?_erase_of_ne _ hkey
  · exact hfiled

/-- Every act keeps a table sound. -/
theorem Sound.act? {t t' : LockTable} (h : t.Sound) {act : LockAct} (hact : t.act? act = some t') :
    t'.Sound := by
  cases act with
  | arrive user key =>
      obtain ⟨-, hkept, mutex, hfiled, huses⟩ := arrive?_eq_some hact
      refine h.of_turned huses (fun v use m _ huse hm => hkept _ _ (h.filed v use m huse hm)) ?_ ?_
      · intro use m huse hm
        obtain rfl := Option.some.inj huse
        obtain rfl := Option.some.inj hm
        exact hfiled
      · intro use m huse hheld
        obtain rfl := Option.some.inj huse
        cases hheld
  | obtain user =>
      obtain ⟨key, mutex, hwaiting, hfree, hentries, huses⟩ := obtain?_eq_some hact
      refine h.of_turned huses ?_ ?_ ?_
      · intro v use m _ huse hm
        rw [hentries]
        exact h.filed v use m huse hm
      · intro use m huse hm
        obtain rfl := Option.some.inj huse
        obtain rfl := Option.some.inj hm
        rw [hentries]
        exact h.filed user (.waiting key mutex) mutex hwaiting rfl
      · intro use m huse hheld
        obtain rfl := Option.some.inj huse
        obtain rfl := Option.some.inj hheld
        exact hfree
  | letGo user =>
      obtain ⟨use, huse, hentries, huses⟩ := letGo?_eq_some hact
      refine h.of_turned huses ?_ ?_ ?_
      · intro v use m _ huse hm
        rw [hentries]
        exact h.filed v use m huse hm
      · intro use m huse hm
        obtain rfl := Option.some.inj huse
        cases hm
      · intro use m huse hheld
        obtain rfl := Option.some.inj huse
        cases hheld
  | prune user =>
      obtain ⟨key, hleaving, rfl, huses⟩ := prune?_eq_some hact
      refine h.of_turned huses (fun v use m hv huse hm => ?_) (fun use m huse => by cases huse)
        (fun use m huse => by cases huse)
      refine get?_entries_pruneKey (v := v) ?_ hm (h.filed v use m huse hm)
      rw [use?_forget, if_neg hv, huse]
  | vanish user =>
      obtain ⟨key, mutex, hwaiting, rfl⟩ := vanish?_eq_some hact
      exact h.of_turned (use?_forget t user) (fun v use m _ huse hm => h.filed v use m huse hm)
        (fun use m huse => by cases huse) (fun use m huse => by cases huse)

/-- While one user has the mutex of a key, the mutex that another one waits for under the
same key is not free. -/
theorem Sound.not_isFree {t : LockTable} (h : t.Sound) {user user' : LockUser} {key : String}
    {mutex mutex' : MutexId} (hholding : t.use? user = some (.holding key mutex))
    (hwaiting : t.use? user' = some (.waiting key mutex')) : t.isFree mutex' = false := by
  have hfiled := h.filed user _ mutex hholding rfl
  have hfiled' := h.filed user' _ mutex' hwaiting rfl
  obtain rfl : mutex = mutex' := Option.some.inj (hfiled.symm.trans hfiled')
  rw [Bool.eq_false_iff]
  exact fun hfree => held?_ne_of_isFree hfree hholding rfl

end LockTable

end WordDuel
