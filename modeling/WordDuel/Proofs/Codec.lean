import WordDuel.Proofs.Json
import WordDuel.Wire.View
/-!
# WordDuel.Proofs.Codec

**Values that read back from their JSON text.** That a value does is a matter of the value,
not only of its type, for numbers are read within bounds.
-/

namespace WordDuel

namespace Codec

/-- A value reads back from its JSON text. -/
structure ReadsBack [Codec α] (a : α) : Prop where
  plain : (encode a).Plain
  decoded : decode? (encode a) = some a

theorem decodeText?_encodeText [Codec α] {a : α} (h : ReadsBack a) :
    decodeText? (encodeText a) = some a := by
  rw [decodeText?, encodeText, Json.read?_render h.plain]
  exact h.decoded

theorem ReadsBack.char (c : Char) : ReadsBack c := by
  refine ⟨.string _, ?_⟩
  simp [encode, decode?, Json.text]

theorem ReadsBack.list [Codec α] {as : List α} (h : ∀ a ∈ as, ReadsBack a) : ReadsBack as := by
  refine ⟨.array fun v hv => ?_, ?_⟩
  · obtain ⟨a, ha, rfl⟩ := List.mem_map.1 hv
    exact (h a ha).plain
  · show (as.map encode).mapM decode? = some as
    induction as with
    | nil => rfl
    | cons a as ih =>
        rw [List.map_cons, List.mapM_cons, (h a List.mem_cons_self).decoded,
          ih fun a ha => h a (List.mem_cons_of_mem _ ha)]
        rfl

/-! ### Numbers and texts -/

theorem ReadsBack.nat {n : Nat} (h : n ≤ 4294967295) : ReadsBack n := by
  refine ⟨.int _, ?_⟩
  have hwithin : (0 : Int) ≤ n ∧ (n : Int) ≤ 4294967295 := by omega
  show (Json.intWithin? 0 4294967295 (.int n)).map Int.toNat = some n
  rw [Json.intWithin?, if_pos hwithin]
  rfl

theorem ReadsBack.int {n : Int} (h : -2147483648 ≤ n ∧ n ≤ 2147483647) : ReadsBack n := by
  refine ⟨.int _, ?_⟩
  show Json.intWithin? (-2147483648) 2147483647 (.int n) = some n
  rw [Json.intWithin?, if_pos h]

theorem ReadsBack.text (s : String) : ReadsBack s := ⟨.string _, rfl⟩

/-! ### Records -/

theorem plain_ofMembers {members : List (String × Json)} (h : ∀ m ∈ members, m.2.Plain) :
    (Json.ofMembers members).Plain := by
  refine .object fun m hm => ?_
  obtain ⟨member, hmember, rfl⟩ := List.mem_map.1 hm
  exact h member hmember

/-- A member is found under its key, if no other has the same one. -/
theorem find?_member {members : List (String × Json)} (h : (members.map Prod.fst).Nodup)
    {member : String × Json} (hmember : member ∈ members) :
    (members.map fun m => (some m.1, m.2)).find? (fun m => m.1 == some member.1) =
      some (some member.1, member.2) := by
  induction members with
  | nil => cases hmember
  | cons m ms ih =>
      obtain ⟨hnew, hrest⟩ := List.nodup_cons.1 h
      rcases List.mem_cons.1 hmember with rfl | hmember
      · simp
      · have hne : m.1 ≠ member.1 := by
          intro heq
          exact hnew (heq ▸ List.mem_map_of_mem hmember)
        simpa [hne] using ih hrest hmember

/-- The fields of a record are read as they were written, if their names differ. -/
theorem fields?_ofMembers (members : List (String × Json)) (h : (members.map Prod.fst).Nodup) :
    (Json.ofMembers members).fields? (members.map Prod.fst) =
      some (members.map fun m => some m.2) := by
  have hknown : (members.map fun m => (some m.1, m.2)).filter
      (fun m => (members.map Prod.fst).any fun n => m.1 == some n) =
        members.map fun m => (some m.1, m.2) := by
    refine List.filter_eq_self.2 fun m hm => ?_
    obtain ⟨member, hmember, rfl⟩ := List.mem_map.1 hm
    exact List.any_eq_true.2 ⟨member.1, List.mem_map_of_mem hmember, by simp⟩
  have hkeys : ((members.map fun m => (some m.1, m.2)).map Prod.fst).Nodup := by
    rw [List.map_map]
    exact (List.pairwise_map.2 ((List.pairwise_map.1 h).imp fun hne heq =>
      hne (Option.some.inj heq)))
  have hfound : (members.map Prod.fst).map (fun n =>
      ((members.map fun m => (some m.1, m.2)).find? fun m => m.1 == some n).map Prod.snd) =
        members.map fun m => some m.2 := by
    rw [List.map_map]
    refine List.map_congr_left fun m hm => ?_
    exact congrArg (Option.map Prod.snd) (find?_member h hm)
  simp only [Json.ofMembers, Json.fields?, hknown, hkeys, hfound]
  simp

theorem required?_encode [Codec α] {a : α} (h : ReadsBack a) :
    Json.required? (some (encode a)) = some a := h.decoded

/-- A value that may be left out is not written as one that is. -/
structure ReadsBackIfAny [Codec α] (o : Option α) : Prop where
  readsBack : ∀ a ∈ o, ReadsBack a
  notNull : ∀ a ∈ o, encode a ≠ Json.null

theorem ReadsBackIfAny.plain [Codec α] {o : Option α} (h : ReadsBackIfAny o) :
    (encode o).Plain := by
  cases o with
  | none => exact .null
  | some a => exact (h.readsBack a rfl).plain

theorem optional?_encode [Codec α] {o : Option α} (h : ReadsBackIfAny o) :
    Json.optional? (some (encode o)) = some o := by
  cases o with
  | none => rfl
  | some a =>
      have hnull : encode a ≠ Json.null := h.notNull a rfl
      have hdecoded : decode? (encode a) = some a := (h.readsBack a rfl).decoded
      show Json.optional? (some (encode a)) = some (some a)
      rw [Json.optional?, hdecoded]
      · rfl
      · exact hnull

theorem ReadsBackIfAny.text (o : Option String) : ReadsBackIfAny o :=
  ⟨fun s _ => .text s, fun _ _ => nofun⟩

/-! ### Names and letters -/

theorem ReadsBack.mark (m : Mark) : ReadsBack m := by
  cases m <;> exact ⟨.string _, by decide⟩

theorem ReadsBack.letter (l : MarkedLetter) : ReadsBack l := by
  refine ⟨plain_ofMembers ?_, ?_⟩
  · simp [(ReadsBack.char l.letter).plain, (ReadsBack.mark l.mark).plain]
  · have hfields : (encode l).fields? ["letter", "status"] =
        some [some (encode l.letter), some (encode l.mark)] :=
      fields?_ofMembers [("letter", _), ("status", _)] (by simp)
    show ((encode l).fields? ["letter", "status"]).bind _ = some l
    rw [hfields]
    simp [required?_encode (.char l.letter), required?_encode (.mark l.mark)]

end Codec

/-- Whatever the letters of a guess are, the text that is stored for them gives them back. -/
theorem decodeText?_encodeText_letters (letters : List MarkedLetter) :
    decodeText? (encodeText letters) = some letters :=
  Codec.decodeText?_encodeText (.list fun l _ => .letter l)

end WordDuel
