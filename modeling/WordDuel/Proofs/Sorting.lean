import WordDuel.Storage.Tables
/-!
# WordDuel.Proofs.Sorting

**Rows in order.** The orders in which rows are asked for rank whatever may stand in a column.
So it does not matter whether rows are picked out before or after they are sorted
(`select_filter`), and rows that can be put in order in one way only come in that order, however
they are kept (`select_eq`).

Players and guesses are put into rows with their places, and come back in the order of the
columns that hold these (`Room.asRead`, `Round.asRead`). They all come back; and as long as no
place is too large for its column they come back as they stood (`Duel.asRead_eq`).
-/

namespace WordDuel

/-! ### Members of a list -/

/-- Of two members of a list the one comes before the other, if there are two. -/
theorem eq_or_of_pairwise {α : Type} {R : α → α → Prop} {as : List α} (h : as.Pairwise R) {a b : α}
    (ha : a ∈ as) (hb : b ∈ as) : a = b ∨ R a b ∨ R b a := by
  obtain ⟨i, hi, rfl⟩ := List.getElem_of_mem ha
  obtain ⟨j, hj, rfl⟩ := List.getElem_of_mem hb
  have hpairwise := List.pairwise_iff_getElem.1 h
  rcases Nat.lt_trichotomy i j with hlt | rfl | hgt
  · exact .inr (.inl (hpairwise i j hi hj hlt))
  · exact .inl rfl
  · exact .inr (.inr (hpairwise j i hj hi hgt))

theorem pairwise_zipIdx {α : Type} (as : List α) : as.zipIdx.Pairwise fun a b => a.2 < b.2 := by
  have hrange : (as.zipIdx.map Prod.snd).Pairwise (· < ·) := by
    rw [List.zipIdx_map_snd]
    exact List.pairwise_lt_range' 1
  exact List.pairwise_map.1 hrange

/-- A list that is cut where a property begins to hold is cut by the property. -/
theorem append_cut {α : Type} {p : α → Bool} {before after : List α}
    (hbefore : ∀ a ∈ before, (!p a) = true) (hafter : ∀ a ∈ after, p a) :
    before = (before ++ after).filter (!p ·) ∧ after = (before ++ after).filter p := by
  constructor
  · rw [List.filter_append, List.filter_eq_self.2 hbefore,
      List.filter_eq_nil_iff.2 fun a ha => by simp [hafter a ha], List.append_nil]
  · rw [List.filter_append, List.filter_eq_nil_iff.2 fun a ha => by simpa using hbefore a ha,
      List.filter_eq_self.2 hafter, List.nil_append]

/-! ### Picking out of what has been sorted -/

section Sorting

variable {α : Type} {le : α → α → Bool} (htrans : ∀ a b c, le a b → le b c → le a c)
  (htotal : ∀ a b, (le a b || le b a) = true)

include htrans htotal

/-- A row is sorted in before all that are no less than it. -/
theorem mergeSort_cons_eq (a : α) (rows : List α) :
    (a :: rows).mergeSort le =
      (rows.mergeSort le).filter (!le a ·) ++ a :: (rows.mergeSort le).filter (le a) := by
  obtain ⟨before, after, hall, hrest, hbefore⟩ := List.mergeSort_cons htrans htotal a rows
  have hsorted := List.pairwise_mergeSort htrans htotal (a :: rows)
  rw [hall] at hsorted
  have hafter := (List.pairwise_cons.1 (List.pairwise_append.1 hsorted).2.1).1
  obtain ⟨hb, ha⟩ := append_cut hbefore hafter
  rw [hall, hrest, ← hb, ← ha]

/-- Rows that are picked out of sorted ones are in the order in which they are if they are
sorted by themselves. -/
theorem filter_mergeSort (p : α → Bool) (rows : List α) :
    (rows.mergeSort le).filter p = (rows.filter p).mergeSort le := by
  induction rows with
  | nil => simp
  | cons a rows ih =>
      by_cases ha : p a
      · rw [List.filter_cons_of_pos ha, mergeSort_cons_eq htrans htotal,
          mergeSort_cons_eq htrans htotal, List.filter_append, List.filter_cons_of_pos ha, ← ih]
        simp only [List.filter_filter, Bool.and_comm]
      · obtain ⟨before, after, hall, hrest, -⟩ := List.mergeSort_cons htrans htotal a rows
        rw [List.filter_cons_of_neg ha, ← ih, hall, hrest, List.filter_append, List.filter_append,
          List.filter_cons_of_neg ha]

end Sorting

/-! ### The order of what may stand in a column -/

instance : Std.TransCmp Stored.order where
  eq_swap {a b} := by
    cases a <;> cases b <;> simp [Stored.order]
    exact Std.OrientedCmp.eq_swap
  isLE_trans {a b c} := by
    cases a <;> cases b <;> cases c <;> simp [Stored.order]
    exact Std.TransCmp.isLE_trans

/-- Every column is ranked if values are, and come all before or all after the rest. -/
theorem Held.transCmp_order {α : Type} [Ord α] [Std.TransOrd α] {rest : Ordering}
    (hrest : rest ≠ .eq) : Std.TransCmp (Held.order rest : Held α → Held α → Ordering) where
  eq_swap {a b} := by
    cases a <;> cases b <;> simp [Held.order, Held.odd?]
    all_goals exact Std.OrientedCmp.eq_swap
  isLE_trans {a b c} := by
    -- Nothing that is not a value comes both before and after a value.
    have hside (hge : rest.isGE) (hle : rest.isLE) : False := by
      cases rest <;> simp at hrest hge hle
    cases a <;> cases b <;> cases c <;> simp [Held.order, Held.odd?]
    all_goals first
      | exact Std.TransCmp.isLE_trans
      | exact fun hge hle => (hside hge hle).elim
      | exact fun hle hge => (hside hge hle).elim
      | exact fun h _ => h

instance : Std.TransCmp Held.numberOrder := Held.transCmp_order (by decide)

instance : Std.TransCmp Held.idOrder := Held.transCmp_order (by decide)

/-- Rows are ranked by what stands in a column of theirs. -/
theorem transCmp_column {α β : Type} (cmp : β → β → Ordering) [Std.TransCmp cmp]
    (column : α → β) : Std.TransCmp fun a b => cmp (column a) (column b) where
  eq_swap := Std.OrientedCmp.eq_swap
  isLE_trans := Std.TransCmp.isLE_trans

theorem compareLex_eq_lt {α : Type} {first second : α → α → Ordering} {a b : α} :
    compareLex first second a b = .lt ↔
      first a b = .lt ∨ first a b = .eq ∧ second a b = .lt := by
  rw [compareLex]
  cases first a b <;> simp

@[simp] theorem Held.numberOrder_eq_lt {m n : Int} :
    numberOrder (.value m) (.value n) = .lt ↔ m < n :=
  Int.compare_eq_lt

@[simp] theorem Held.numberOrder_eq_eq {m n : Int} :
    numberOrder (.value m) (.value n) = .eq ↔ m = n :=
  Int.compare_eq_eq

@[simp] theorem Held.idOrder_eq_lt {a b : Uuid} :
    idOrder (.value a) (.value b) = .lt ↔ compare a b = .lt :=
  Iff.rfl

@[simp] theorem Held.idOrder_eq_eq {a b : Uuid} :
    idOrder (.value a) (.value b) = .eq ↔ a = b := by
  show compare a b = .eq ↔ a = b
  exact Std.LawfulEqCmp.compare_eq_iff_eq

namespace Tables

instance : Std.TransCmp rosterOrder :=
  have := transCmp_column Held.numberOrder RosterRow.position
  have := transCmp_column Held.idOrder RosterRow.player
  inferInstanceAs (Std.TransCmp (compareLex _ _))

instance : Std.TransCmp roundOrder := transCmp_column Held.numberOrder RoundRow.number

instance : Std.TransCmp standingOrder :=
  have := transCmp_column Held.numberOrder StandingRow.round
  have := transCmp_column Held.idOrder StandingRow.player
  inferInstanceAs (Std.TransCmp (compareLex _ _))

instance : Std.TransCmp guessOrder :=
  have := transCmp_column Held.numberOrder GuessRow.round
  have := transCmp_column Held.numberOrder GuessRow.sequence
  have := transCmp_column Held.idOrder GuessRow.player
  have := transCmp_column Held.numberOrder GuessRow.attempt
  inferInstanceAs (Std.TransCmp (compareLex _ (compareLex _ (compareLex _ _))))

/-! ### Rows that are asked for -/

section Select

variable {α κ : Type} {order : α → α → Ordering} {wanted : α → Bool} {rows sorted : List α}

theorem mem_select {r : α} : r ∈ select order wanted rows ↔ r ∈ rows.filter wanted :=
  List.mem_mergeSort

theorem mem_of_mem_select {r : α} (h : r ∈ select order wanted rows) : r ∈ rows :=
  (List.mem_filter.1 (mem_select.1 h)).1

/-- Rows with keys of their own have them in whatever order they come. -/
theorem pairwise_key_mergeSort {key : α → κ} (le : α → α → Bool) (h : (rows.map key).Nodup) :
    (rows.mergeSort le).Pairwise fun a b => key a ≠ key b :=
  List.pairwise_map.1 (((List.mergeSort_perm rows le).map key).nodup_iff.2 h)

variable [Std.TransCmp order]

theorem isLE_total (a b : α) : ((order a b).isLE || (order b a).isLE) = true := by
  have hswap : order b a = (order a b).swap := Std.OrientedCmp.eq_swap
  rw [hswap]
  cases order a b <;> rfl

theorem pairwise_mergeSort (order : α → α → Ordering) [Std.TransCmp order] (rows : List α) :
    (rows.mergeSort fun a b => (order a b).isLE).Pairwise fun a b => (order a b).isLE :=
  List.pairwise_mergeSort (fun _ _ _ => Std.TransCmp.isLE_trans) isLE_total rows

/-- It does not matter whether rows are picked out before or after they are put in order. -/
theorem select_filter (order : α → α → Ordering) [Std.TransCmp order] (wanted p : α → Bool)
    (rows : List α) :
    (select order wanted rows).filter p = select order (fun r => wanted r && p r) rows := by
  rw [select, filter_mergeSort (fun _ _ _ => Std.TransCmp.isLE_trans) isLE_total,
    List.filter_filter, select]
  simp only [Bool.and_comm]

/-- Rows that can be put in order in one way only are selected in that order. -/
theorem select_eq (hperm : (rows.filter wanted).Perm sorted)
    (hsorted : sorted.Pairwise fun a b => order a b = .lt) : select order wanted rows = sorted := by
  have hselect := (List.mergeSort_perm (rows.filter wanted) fun a b => (order a b).isLE).trans hperm
  have hle : sorted.Pairwise fun a b => (order a b).isLE := hsorted.imp fun hlt => by rw [hlt]; rfl
  refine hselect.eq_of_pairwise (fun a b ha hb hab hba => ?_) (pairwise_mergeSort order _) hle
  rcases eq_or_of_pairwise hsorted (hselect.mem_iff.1 ha) hb with heq | hlt | hgt
  · exact heq
  · rw [Std.OrientedCmp.gt_of_lt hlt] at hba
    cases hba
  · rw [Std.OrientedCmp.gt_of_lt hgt] at hab
    cases hab

/-- Rows can be put in order in one way only if their keys are told apart by the order. -/
theorem pairwise_lt_mergeSort {key : α → κ} (hnodup : (rows.map key).Nodup)
    (hkey : ∀ a ∈ rows, ∀ b ∈ rows, order a b = .eq → key a = key b) :
    (rows.mergeSort fun a b => (order a b).isLE).Pairwise fun a b => order a b = .lt := by
  have hsorted := (pairwise_mergeSort order rows).and (pairwise_key_mergeSort _ hnodup)
  refine hsorted.imp_of_mem fun {a b} ha hb h => ?_
  obtain ⟨hle, hne⟩ := h
  have heq := hkey a (List.mem_mergeSort.1 ha) b (List.mem_mergeSort.1 hb)
  cases horder : order a b with
  | lt => rfl
  | eq => exact (hne (heq horder)).elim
  | gt =>
      rw [horder] at hle
      cases hle

end Select

/-! ### Members of a list with their places -/

section Places

variable {α β : Type} {order : β → β → Ordering} {row : α × Nat → β} {as : List α}

/-- The members of a list with their places, in the order in which their rows are read. -/
def inOrder (order : β → β → Ordering) (row : α × Nat → β) (as : List α) : List (α × Nat) :=
  as.zipIdx.mergeSort fun a b => (order (row a) (row b)).isLE

theorem map_inOrder : (inOrder order row as).map row =
    (as.zipIdx.map row).mergeSort fun a b => (order a b).isLE :=
  List.map_mergeSort fun _ _ _ _ => rfl

/-- All members come, in whatever order. -/
theorem perm_inOrder : ((inOrder order row as).map Prod.fst).Perm as :=
  ((List.mergeSort_perm _ _).map Prod.fst).trans (.of_eq (List.zipIdx_map_fst 0 as))

/-- The members come as they stand in the list if the order of their rows is that of their
places. -/
theorem inOrder_eq (h : ∀ a b i j, i < j → j < as.length → order (row (a, i)) (row (b, j)) = .lt) :
    (inOrder order row as).map Prod.fst = as := by
  have hsorted : as.zipIdx.Pairwise fun a b => (order (row a) (row b)).isLE := by
    refine (pairwise_zipIdx as).imp_of_mem fun {a b} _ hb hlt => ?_
    rw [h a.1 b.1 a.2 b.2 hlt (List.snd_lt_of_mem_zipIdx hb)]
    rfl
  rw [inOrder, List.mergeSort_of_pairwise hsorted, List.zipIdx_map_fst]

end Places

end Tables

/-! ### Duels as they are read -/

-- It only matters in which order columns keep the places.
attribute [local irreducible] toColumn

/-- The record of a player at a place on the roster. -/
def Room.rosterRecord (room : Room) (entry : PlayerId × Nat) : RosterRecord :=
  ⟨room.id, entry.1, toColumn entry.2, room.pointsOf entry.1⟩

/-- The record of a guess at a place in the round. -/
def Round.guessRecord (round : Round) (entry : Guess × Nat) : GuessRecord :=
  .ofGuess round.room round.number entry.2 entry.1

/-- The players of a room with their places, in the order in which they are read. -/
def Room.rosterInOrder (room : Room) : List (PlayerId × Nat) :=
  Tables.inOrder Tables.rosterOrder (fun entry => .ofRecord (room.rosterRecord entry)) room.players

/-- The guesses of a round with their places, in the order in which they are read. -/
def Round.guessesInOrder (round : Round) : List (Guess × Nat) :=
  Tables.inOrder Tables.guessOrder (fun entry => .ofRecord (round.guessRecord entry)) round.guesses

/-- The records of a roster in the order in which they are read. -/
def Room.rosterRecords (room : Room) : List RosterRecord :=
  room.rosterInOrder.map room.rosterRecord

/-- The records of the guesses of a round in the order in which they are read. -/
def Round.guessRecords (round : Round) : List GuessRecord :=
  round.guessesInOrder.map round.guessRecord

/-- A room as it is read: its players come in the order of the columns that hold their places. -/
def Room.asRead (room : Room) : Room := { room with players := room.rosterInOrder.map Prod.fst }

/-- A round as it is read: its guesses come in the order of the columns that hold their places. -/
def Round.asRead (round : Round) : Round :=
  { round with guesses := round.guessesInOrder.map Prod.fst }

/-- A duel as it is read. -/
def Duel.asRead (duel : Duel) : Duel := ⟨duel.room.asRead, duel.rounds.map Round.asRead⟩

/-- A duel with so few players and guesses that columns keep them in their places. -/
structure Duel.Numerable (duel : Duel) : Prop where
  players : duel.room.players.length ≤ 2147483648
  guesses : ∀ round ∈ duel.rounds, round.guesses.length ≤ 2147483648

theorem Room.perm_asRead (room : Room) : room.asRead.players.Perm room.players :=
  Tables.perm_inOrder

theorem Round.perm_asRead (round : Round) : round.asRead.guesses.Perm round.guesses :=
  Tables.perm_inOrder

theorem Room.asRead_eq {room : Room} (h : room.players.length ≤ 2147483648) :
    room.asRead = room := by
  have hplayers : room.rosterInOrder.map Prod.fst = room.players := by
    refine Tables.inOrder_eq fun a b i j hlt hj => ?_
    have hposition : toColumn i < toColumn j := toColumn_lt hlt (Nat.lt_of_lt_of_le hj h)
    exact compareLex_eq_lt.2 (.inl (Held.numberOrder_eq_lt.2 hposition))
  rw [asRead, hplayers]

theorem Round.asRead_eq {round : Round} (h : round.guesses.length ≤ 2147483648) :
    round.asRead = round := by
  have hguesses : round.guessesInOrder.map Prod.fst = round.guesses := by
    refine Tables.inOrder_eq fun a b i j hlt hj => ?_
    have hsequence : toColumn i < toColumn j := toColumn_lt hlt (Nat.lt_of_lt_of_le hj h)
    exact compareLex_eq_lt.2 (.inr ⟨Held.numberOrder_eq_eq.2 rfl,
      compareLex_eq_lt.2 (.inl (Held.numberOrder_eq_lt.2 hsequence))⟩)
  rw [asRead, hguesses]

theorem Duel.asRead_eq {duel : Duel} (h : duel.Numerable) : duel.asRead = duel := by
  have hrounds : duel.rounds.map Round.asRead = duel.rounds :=
    (List.map_congr_left fun round hround => Round.asRead_eq (h.guesses round hround)).trans
      (List.map_id _)
  rw [asRead, Room.asRead_eq h.players, hrounds]

theorem Duel.round?_asRead (duel : Duel) (number : Nat) :
    duel.asRead.round? number = (duel.round? number).map Round.asRead :=
  List.find?_map

/-- Of a duel that has been loaded the rounds are those that are read. -/
theorem round?_of_loaded (duel? : Option Duel) (number : Nat) :
    ((duel?.map Duel.asRead).bind fun duel => duel.round? number) =
      (duel?.bind fun duel => duel.round? number).map Round.asRead := by
  cases duel? with
  | none => rfl
  | some duel => exact duel.round?_asRead number

end WordDuel
