import WordDuel.Proofs.Locks
/-!
# WordDuel.Proofs.Waiting

**What keeps a user waiting.** In a sound table at most one user has the lock of a key. That
nobody else is in the way takes more: every user is listed once, and no mutex is filed under
two keys (`LockTable.Tidy`). Then whatever a user can do next is possible at once, unless it
waits for a lock that another user of the same key has.
-/

namespace WordDuel

/-- Who acts. -/
def LockAct.user : LockAct → LockUser
  | .arrive user _ | .obtain user | .letGo user | .prune user | .vanish user => user

/-- Whether it is the user's turn to act so: it is new, or it has come so far. -/
def LockAct.Due (t : LockTable) : LockAct → Prop
  | .arrive user _ => t.use? user = none
  | .obtain user | .vanish user => ∃ key mutex, t.use? user = some (.waiting key mutex)
  | .letGo user => ∃ use mutex, t.use? user = some use ∧ use.mutex? = some mutex
  | .prune user => ∃ key, t.use? user = some (.leaving key)

/-- Whether the user would get the lock of a key that somebody has. -/
def LockAct.Clashes (t : LockTable) : LockAct → Prop
  | .obtain user => ∃ key mutex holder mutex', t.use? user = some (.waiting key mutex) ∧
      t.use? holder = some (.holding key mutex')
  | _ => False

namespace LockTable

/-! ### Users and mutexes are told apart -/

/-- No user is listed twice, and no mutex is filed twice. -/
structure Tidy (t : LockTable) : Prop where
  users : (t.uses.map Prod.fst).Nodup
  /-- What is filed has been made before. -/
  made : ∀ key mutex, t.entries.get? key = some mutex → mutex < t.made
  filed : ∀ key key' mutex, t.entries.get? key = some mutex → t.entries.get? key' = some mutex →
    key = key'

theorem tidy_empty : empty.Tidy where
  users := List.nodup_nil
  made key mutex hfiled := by cases hfiled
  filed key key' mutex hfiled := by cases hfiled

variable {t t' : LockTable}

theorem map_fst_turn (t : LockTable) (user : LockUser) (use : LockUse) :
    (t.turn user use).uses.map Prod.fst = t.uses.map Prod.fst := by
  show (t.uses.map fun p => if p.1 = user then (user, use) else p).map Prod.fst = _
  rw [List.map_map]
  refine List.map_congr_left fun p _ => ?_
  by_cases hp : p.1 = user <;> simp [hp]

theorem Tidy.turn (h : t.Tidy) (user : LockUser) (use : LockUse) : (t.turn user use).Tidy where
  users := by
    rw [map_fst_turn]
    exact h.users
  made := h.made
  filed := h.filed

theorem Tidy.forget (h : t.Tidy) (user : LockUser) : (t.forget user).Tidy where
  users := h.users.sublist (List.filter_sublist.map Prod.fst)
  made := h.made
  filed := h.filed

/-- Entries go away, and none comes. -/
theorem get?_of_pruneKey {key k : String} {mutex : MutexId}
    (h : (t.pruneKey key).entries.get? k = some mutex) : t.entries.get? k = some mutex := by
  rw [pruneKey] at h
  split at h
  · split at h
    · exact h
    · by_cases hk : k = key
      · subst hk
        have hnone := SortedMap.get?_erase_self t.entries k
        cases hnone.symm.trans h
      · rwa [SortedMap.get?_erase_of_ne _ hk] at h
  · exact h

theorem uses_made_pruneKey (t : LockTable) (key : String) :
    (t.pruneKey key).uses = t.uses ∧ (t.pruneKey key).made = t.made := by
  rw [pruneKey]
  split
  · split <;> exact ⟨rfl, rfl⟩
  · exact ⟨rfl, rfl⟩

theorem Tidy.pruneKey (h : t.Tidy) (key : String) : (t.pruneKey key).Tidy where
  users := by
    rw [(uses_made_pruneKey t key).1]
    exact h.users
  made k mutex hfiled := by
    rw [(uses_made_pruneKey t key).2]
    exact h.made k mutex (get?_of_pruneKey hfiled)
  filed k k' mutex hfiled hfiled' :=
    h.filed k k' mutex (get?_of_pruneKey hfiled) (get?_of_pruneKey hfiled')

/-- A mutex that is made for a key is filed under no other. -/
theorem Tidy.mutexOf (h : t.Tidy) (key : String) : (t.mutexOf key).2.Tidy := by
  rw [LockTable.mutexOf]
  split
  · exact h
  · have hold {k : String} {mutex : MutexId} (hk : k ≠ key)
        (hfiled : (t.entries.insert key t.made).get? k = some mutex) :
        t.entries.get? k = some mutex := by
      rwa [SortedMap.get?_insert_of_ne _ _ hk] at hfiled
    have hnew {mutex : MutexId}
        (hfiled : (t.entries.insert key t.made).get? key = some mutex) : mutex = t.made := by
      rw [SortedMap.get?_insert_self] at hfiled
      exact (Option.some.inj hfiled).symm
    refine ⟨h.users, fun k mutex hfiled => ?_, fun k k' mutex hfiled hfiled' => ?_⟩
    · by_cases hk : k = key
      · subst hk
        rw [hnew hfiled]
        exact Nat.lt_succ_self _
      · exact Nat.lt_succ_of_lt (h.made k mutex (hold hk hfiled))
    · -- The new mutex has not been filed before: all that were filed are older.
      by_cases hk : k = key
      · by_cases hk' : k' = key
        · rw [hk, hk']
        · subst hk
          have hlt := h.made k' mutex (hold hk' hfiled')
          rw [hnew hfiled] at hlt
          exact (Nat.lt_irrefl _ hlt).elim
      · by_cases hk' : k' = key
        · subst hk'
          have hlt := h.made k mutex (hold hk hfiled)
          rw [hnew hfiled'] at hlt
          exact (Nat.lt_irrefl _ hlt).elim
        · exact h.filed k k' mutex (hold hk hfiled) (hold hk' hfiled')

theorem Tidy.arrive? (h : t.Tidy) {user : LockUser} {key : String}
    (harrives : t.arrive? user key = some t') : t'.Tidy := by
  rw [LockTable.arrive?] at harrives
  split at harrives
  · cases harrives
  · next hnew =>
    obtain rfl := Option.some.inj harrives
    have hmutex := h.mutexOf key
    obtain ⟨huses, -, -⟩ := mutexOf_spec t key
    refine ⟨?_, hmutex.made, hmutex.filed⟩
    have hnone : ∀ p ∈ t.uses, p.1 ≠ user := by
      intro p hp heq
      have hlookup : t.uses.lookup user = none := by
        rwa [Bool.not_eq_true, Option.isSome_eq_false_iff, Option.isNone_iff_eq_none] at hnew
      have hne := List.lookup_eq_none_iff.1 hlookup p hp
      rw [heq] at hne
      simp at hne
    show (((t.mutexOf key).2.uses ++ [(user, _)]).map Prod.fst).Nodup
    rw [huses, List.map_append, List.nodup_append]
    refine ⟨h.users, by simp, fun v hv w hw => ?_⟩
    obtain ⟨p, hp, rfl⟩ := List.mem_map.1 hv
    rw [List.map_singleton, List.mem_singleton] at hw
    rw [hw]
    exact hnone p hp

/-- Every act keeps a table tidy. -/
theorem Tidy.act? (h : t.Tidy) {act : LockAct} (hact : t.act? act = some t') : t'.Tidy := by
  cases act with
  | arrive user key => exact h.arrive? hact
  | obtain user =>
      simp only [LockTable.act?, obtain?] at hact
      split at hact
      · split at hact
        · obtain rfl := Option.some.inj hact
          exact h.turn user _
        · cases hact
      · cases hact
  | letGo user =>
      simp only [LockTable.act?, letGo?] at hact
      split at hact
      · obtain rfl := Option.some.inj hact
        exact h.turn user _
      · obtain rfl := Option.some.inj hact
        exact h.turn user _
      · cases hact
  | prune user =>
      obtain ⟨key, -, rfl, -⟩ := prune?_eq_some hact
      exact (h.forget user).pruneKey key
  | vanish user =>
      obtain ⟨key, mutex, -, rfl⟩ := vanish?_eq_some hact
      exact h.forget user

/-! ### What is possible -/

theorem Tidy.use?_of_mem (h : t.Tidy) {user : LockUser} {use : LockUse}
    (hmem : (user, use) ∈ t.uses) : t.use? user = some use := by
  obtain ⟨before, after, huses⟩ := List.append_of_mem hmem
  have hnodup := h.users
  rw [huses, List.map_append, List.nodup_append] at hnodup
  have hnone : before.lookup user = none := by
    rw [List.lookup_eq_none_iff]
    intro p hp
    have hne := hnodup.2.2 p.1 (List.mem_map_of_mem hp) user (by simp)
    exact bne_iff_ne.2 (Ne.symm hne)
  rw [use?, huses, List.lookup_append, hnone]
  simp

/-- A mutex is free when no user has it. -/
theorem Tidy.isFree_iff (h : t.Tidy) {mutex : MutexId} :
    t.isFree mutex ↔ ∀ user use, t.use? user = some use → use.held? ≠ some mutex := by
  constructor
  · intro hfree user use huse
    exact held?_ne_of_isFree hfree huse
  · intro hnone
    rw [isFree, List.all_eq_true]
    intro p hp
    exact decide_eq_true (hnone p.1 p.2 (h.use?_of_mem hp))

/-- Who waits gets the lock unless a user of the same key has it. -/
theorem Tidy.isSome_obtain?_iff (h : t.Tidy) (hsound : t.Sound) {user : LockUser} {key : String}
    {mutex : MutexId} (hwaiting : t.use? user = some (.waiting key mutex)) :
    (t.obtain? user).isSome ↔ ∀ holder mutex', t.use? holder ≠ some (.holding key mutex') := by
  have hobtain : (t.obtain? user).isSome ↔ t.isFree mutex := by
    rw [obtain?, hwaiting]
    by_cases hfree : t.isFree mutex <;> simp [hfree]
  rw [hobtain, h.isFree_iff]
  have hfiled := hsound.filed user _ mutex hwaiting rfl
  constructor
  · intro hnone holder mutex' hholding
    -- Whoever has the lock of the key has the mutex that is filed there.
    have hfiled' := hsound.filed holder _ mutex' hholding rfl
    obtain rfl : mutex = mutex' := Option.some.inj (hfiled.symm.trans hfiled')
    exact hnone holder _ hholding rfl
  · rintro hnone holder (⟨key', mutex'⟩ | ⟨key', mutex'⟩ | key') hholding hheld
    · cases hheld
    · obtain rfl : mutex' = mutex := Option.some.inj hheld
      obtain rfl := h.filed key key' mutex' hfiled (hsound.filed holder _ mutex' hholding rfl)
      exact hnone holder mutex' hholding
    · cases hheld

/-- Acts that are due are possible, but for those that clash. -/
theorem Tidy.isSome_act?_iff (h : t.Tidy) (hsound : t.Sound) {act : LockAct} (hdue : act.Due t) :
    (t.act? act).isSome ↔ ¬act.Clashes t := by
  cases act with
  | arrive user key =>
      have hnew : t.use? user = none := hdue
      simp [LockTable.act?, LockTable.arrive?, hnew, LockAct.Clashes]
  | obtain user =>
      obtain ⟨key, mutex, hwaiting⟩ := hdue
      refine (h.isSome_obtain?_iff hsound hwaiting).trans ?_
      constructor
      · rintro hnone ⟨key', other, holder, mutex', hwaiting', hholding⟩
        rw [hwaiting] at hwaiting'
        obtain ⟨rfl, -⟩ := LockUse.waiting.inj (Option.some.inj hwaiting')
        exact hnone holder mutex' hholding
      · intro hfree holder mutex' hholding
        exact hfree ⟨key, mutex, holder, mutex', hwaiting, hholding⟩
  | letGo user =>
      obtain ⟨use, mutex, huse, hmutex⟩ := hdue
      cases use with
      | leaving key => cases hmutex
      | _ => simp [LockTable.act?, letGo?, huse, LockAct.Clashes]
  | prune user =>
      obtain ⟨key, hleaving⟩ := hdue
      simp [LockTable.act?, prune?, hleaving, LockAct.Clashes]
  | vanish user =>
      obtain ⟨key, mutex, hwaiting⟩ := hdue
      simp [LockTable.act?, vanish?, hwaiting, LockAct.Clashes]

/-- Nobody is moved by what somebody else does. -/
theorem use?_act? {act : LockAct} (hact : t.act? act = some t') {user : LockUser}
    (huser : user ≠ act.user) : t'.use? user = t.use? user := by
  cases act with
  | arrive other key =>
      obtain ⟨-, -, mutex, -, huses⟩ := arrive?_eq_some hact
      exact (huses user).trans (if_neg huser)
  | obtain other =>
      obtain ⟨key, mutex, -, -, -, huses⟩ := obtain?_eq_some hact
      exact (huses user).trans (if_neg huser)
  | letGo other =>
      obtain ⟨use, -, -, huses⟩ := letGo?_eq_some hact
      exact (huses user).trans (if_neg huser)
  | prune other =>
      obtain ⟨key, -, -, huses⟩ := prune?_eq_some hact
      exact (huses user).trans (if_neg huser)
  | vanish other =>
      obtain ⟨key, mutex, -, rfl⟩ := vanish?_eq_some hact
      exact (use?_forget t other user).trans (if_neg huser)

/-! ### Any number of acts -/

theorem run?_cons (t : LockTable) (act : LockAct) (acts : List LockAct) :
    t.run? (act :: acts) = (t.act? act).bind fun t' => t'.run? acts := rfl

theorem sound_tidy_of_run? {acts : List LockAct} (hsound : t.Sound) (htidy : t.Tidy)
    (hrun : t.run? acts = some t') : t'.Sound ∧ t'.Tidy := by
  induction acts generalizing t with
  | nil =>
      obtain rfl := Option.some.inj hrun
      exact ⟨hsound, htidy⟩
  | cons act acts ih =>
      rw [run?_cons] at hrun
      obtain ⟨t₁, hact, hrest⟩ := Option.bind_eq_some_iff.1 hrun
      exact ih (hsound.act? hact) (htidy.act? hact) hrest

/-- **One lock per key.** However the acts of any number of users are mixed, at most one user
has the lock of a key, and whoever has it or waits for it refers to the mutex that is filed
under the key. Whatever is due is possible at once, with one exception: who waits for the
lock of a key does not get it while another user has the lock of the very same key. And no
act moves any other user. -/
theorem one_lock_per_key {acts : List LockAct} {t : LockTable}
    (hrun : empty.run? acts = some t) :
    (∀ user user' key mutex mutex', t.use? user = some (.holding key mutex) →
      t.use? user' = some (.holding key mutex') → user = user') ∧
    (∀ user use mutex, t.use? user = some use → use.mutex? = some mutex →
      t.entries.get? use.key = some mutex) ∧
    (∀ act : LockAct, act.Due t → ((t.act? act).isSome ↔ ¬act.Clashes t)) ∧
    ∀ (act : LockAct) (t' : LockTable), t.act? act = some t' → ∀ user, user ≠ act.user →
      t'.use? user = t.use? user := by
  obtain ⟨hsound, htidy⟩ := sound_tidy_of_run? sound_empty tidy_empty hrun
  refine ⟨?_, hsound.filed, fun act hdue => htidy.isSome_act?_iff hsound hdue,
    fun act t' hact user huser => use?_act? hact huser⟩
  intro user user' key mutex mutex' hholding hholding'
  have hfiled := hsound.filed user _ mutex hholding rfl
  have hfiled' := hsound.filed user' _ mutex' hholding' rfl
  obtain rfl : mutex = mutex' := Option.some.inj (hfiled.symm.trans hfiled')
  exact hsound.exclusive user user' _ _ mutex hholding hholding' rfl rfl

/-- One user has the lock of a room for which two others wait, the lock of another room is
taken meanwhile, and one of those who wait goes away without a trace. -/
theorem one_lock_per_key_of_two_rooms :
    ∃ t, empty.run? [.arrive 0 "room:a", .obtain 0, .arrive 1 "room:a", .arrive 2 "room:a",
        .arrive 3 "room:b", .obtain 3, .vanish 1, .letGo 3] = some t ∧
      t.use? 0 = some (.holding "room:a" 0) ∧ t.use? 2 = some (.waiting "room:a" 0) ∧
      t.entries.get? "room:a" = some 0 ∧ ¬(t.act? (.obtain 2)).isSome ∧
      (t.act? (.prune 3)).isSome ∧ ∀ user mutex, t.use? user = some (.holding "room:a" mutex) →
        user = 0 := by
  have hoccurs : (empty.run? [.arrive 0 "room:a", .obtain 0, .arrive 1 "room:a",
      .arrive 2 "room:a", .arrive 3 "room:b", .obtain 3, .vanish 1, .letGo 3]).map
      (fun t => (t.use? 0, t.use? 2, t.use? 3)) =
        some (some (.holding "room:a" 0), some (.waiting "room:a" 0),
          some (.leaving "room:b")) := by
    decide +kernel
  obtain ⟨t, hrun, hfacts⟩ := Option.map_eq_some_iff.1 hoccurs
  obtain ⟨hholding, hrest⟩ := Prod.mk.inj hfacts
  obtain ⟨hwaiting, hleaving⟩ := Prod.mk.inj hrest
  obtain ⟨hone, hfiled, hpossible, -⟩ := one_lock_per_key hrun
  refine ⟨t, hrun, hholding, hwaiting, hfiled 2 _ 0 hwaiting rfl, ?_, ?_, ?_⟩
  · rw [hpossible (.obtain 2) ⟨_, _, hwaiting⟩, Classical.not_not]
    exact ⟨_, _, 0, 0, hwaiting, hholding⟩
  · exact (hpossible (.prune 3) ⟨_, hleaving⟩).2 id
  · intro user mutex huser
    exact hone user 0 "room:a" mutex 0 huser hholding

end LockTable

end WordDuel
