import WordDuel.Lock.Key
/-!
# WordDuel.Proofs.Identifiers

**Written identifiers read back.** A number that has no more places than there are digits
is what its digits are read as, and hyphens stand at fixed places only; so an identifier is what
its written form is read as. In particular no two rooms have the same lock (`roomLockKey_inj`).
-/

namespace WordDuel

namespace Hex

theorem value?_digitChar : ∀ n < 16, value? (Nat.digitChar n) = some n := by decide

/-- Digits that are read after others push these up by as many places. -/
theorem foldlM_digits (width n a : Nat) :
    (digits width n).foldlM (fun m c => (value? c).map (m * 16 + ·)) a =
      some (a * Nat.pow 16 width + n % Nat.pow 16 width) := by
  induction width generalizing n with
  | zero =>
      have hone : Nat.pow 16 0 = 1 := rfl
      rw [hone, Nat.mod_one, Nat.mul_one]
      rfl
  | succ width ih =>
      have hlast : value? (Nat.digitChar (n % 16)) = some (n % 16) :=
        value?_digitChar _ (Nat.mod_lt n (by decide))
      have hpow : Nat.pow 16 (width + 1) = 16 * Nat.pow 16 width := Nat.mul_comm _ 16
      have hvalue : (a * Nat.pow 16 width + n / 16 % Nat.pow 16 width) * 16 + n % 16 =
          a * Nat.pow 16 (width + 1) + n % Nat.pow 16 (width + 1) := by
        rw [hpow, Nat.mod_mul, Nat.add_mul, Nat.mul_left_comm a 16]
        omega
      rw [digits, List.foldlM_append, ih]
      simp only [Option.bind_eq_bind, Option.bind_some, List.foldlM_cons, List.foldlM_nil, hlast,
        Option.map_some, hvalue, Option.pure_def]

/-- A number that has enough places is read back. -/
theorem number?_digits {width n : Nat} (h : n < Nat.pow 16 width) :
    number? (digits width n) = some n := by
  rw [number?, foldlM_digits, Nat.zero_mul, Nat.zero_add, Nat.mod_eq_of_lt h]

end Hex

namespace Uuid

/-- The hyphenated form is read by putting its groups together. -/
theorem ofHyphenated?_groups {a b c d e : List Char} (ha : a.length = 8) (hb : b.length = 4)
    (hc : c.length = 4) (hd : d.length = 4) (he : e.length = 12) :
    ofHyphenated? (a ++ '-' :: b ++ '-' :: c ++ '-' :: d ++ '-' :: e) =
      ofDigits? (a ++ b ++ c ++ d ++ e) := by
  simp [ofHyphenated?, List.drop_append, ha, hb, hc, hd, he, List.drop_of_length_le]

/-- The groups of the hyphenated form are all the digits. -/
theorem groups_append {ds : List Char} :
    ds.take 8 ++ (ds.drop 8).take 4 ++ (ds.drop 12).take 4 ++ (ds.drop 16).take 4 ++ ds.drop 20 =
      ds := by
  have hjoin (k n : Nat) : (ds.drop k).take n ++ ds.drop (k + n) = ds.drop k := by
    rw [← List.drop_drop, List.take_append_drop]
  rw [List.append_assoc, List.append_assoc, List.append_assoc, hjoin 16 4, hjoin 12 4, hjoin 8 4,
    List.take_append_drop]

theorem ofHyphenated?_toChars (u : Uuid) :
    ofHyphenated? u.toChars = ofDigits? (Hex.digits 32 u.bits.toNat) := by
  have hlength : (Hex.digits 32 u.bits.toNat).length = 32 := Hex.length_digits ..
  rw [toChars]
  generalize Hex.digits 32 u.bits.toNat = ds at hlength
  rw [ofHyphenated?_groups (by simp [hlength]) (by simp [hlength]) (by simp [hlength])
    (by simp [hlength]) (by simp [hlength]), groups_append]

/-- The written form is read back. -/
theorem ofText?_toText (u : Uuid) : ofText? u.toText = some u := by
  have hchars : ofChars? u.toChars = ofHyphenated? u.toChars := by
    have hlength : u.toChars.length = 36 := by simp [toChars]
    simp [ofChars?, hlength]
  have hnumber : Hex.number? (Hex.digits 32 u.bits.toNat) = some u.bits.toNat :=
    Hex.number?_digits u.bits.isLt
  rw [ofText?, toText, String.toList_ofList, hchars, ofHyphenated?_toChars, ofDigits?,
    if_pos (Hex.length_digits ..), hnumber, Option.map_some, BitVec.ofNat_toNat, BitVec.setWidth_eq]

end Uuid

/-- Different rooms have different locks. -/
theorem roomLockKey_inj {room other : RoomId} (h : roomLockKey room = roomLockKey other) :
    room = other := by
  have htext : room.toText = other.toText := by
    rw [roomLockKey, roomLockKey] at h
    have hlist := congrArg String.toList h
    rw [String.toList_append, String.toList_append] at hlist
    exact String.toList_inj.1 (List.append_cancel_left hlist)
  have hread := congrArg Uuid.ofText? htext
  rw [Uuid.ofText?_toText, Uuid.ofText?_toText] at hread
  exact Option.some.inj hread
end WordDuel
