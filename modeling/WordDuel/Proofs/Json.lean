import WordDuel.Json.Printer
import WordDuel.Json.Reader
/-!
# WordDuel.Proofs.Json

**What is written as JSON reads back.** A value is read up to its end and no further, for
what follows a value in a document can be no part of it: nothing, a comma or a closing
bracket. The bound on nested calls is twice the number of characters that are read.

Numbers other than integers are left out: they are kept as they are spelt, and nothing is
known of how they are spelt.
-/

namespace WordDuel

/-! ### Decimal numerals -/

namespace Decimal

theorem value_digits (n : Nat) : value (digits n) = n := by
  have h := Nat.ofDigitChars_ten_toDigits (n := n)
  rw [Nat.ofDigitChars_eq_foldl] at h
  simpa [value, digits, digitValue, Nat.mul_comm] using h

theorem isDigit_of_mem_digits {n : Nat} {c : Char} (h : c ∈ digits n) : c.isDigit :=
  Nat.isDigit_of_mem_toDigits (by decide) (by decide) h

/-- There is no leading zero. -/
theorem digits_eq_of_head {n : Nat} (h : (digits n).head? = some '0') : digits n = ['0'] := by
  induction n using Nat.strongRecOn with
  | ind n ih =>
      rw [digits, Nat.toDigits_eq_if (by decide)] at h ⊢
      split at h
      · next hlt =>
        rw [if_pos hlt]
        simpa using h
      · next hge =>
        have hne : Nat.toDigits 10 (n / 10) ≠ [] := Nat.toDigits_ne_nil
        rw [List.head?_append, Option.or_of_isSome (List.isSome_head?.2 hne)] at h
        have hzero := congrArg value (ih (n / 10) (by omega) h)
        rw [value_digits] at hzero
        have hpos : n / 10 = 0 := hzero
        omega

end Decimal

namespace Json

/-! ### Strings -/

/-- What is read when a character has been written. -/
def pieceOf (c : Char) : Piece :=
  if c.toNat < 32 ∧ c.toNat ∉ [8, 9, 10, 12, 13] then .unit c.toNat else .char c

theorem hexUnit?_of_lt : ∀ n < 32,
    hexUnit? '0' '0' (Nat.digitChar (n / 16)) (Nat.digitChar (n % 16)) = some n := by
  decide

theorem eq_of_toNat {c : Char} (n : Nat) (h : c.toNat = n) : c = Char.ofNat n := by
  rw [← h, Char.ofNat_toNat]

theorem readPieces_escape (c : Char) (rest : List Char) :
    readPieces (escape c ++ rest) = consPiece (pieceOf c) (readPieces rest) := by
  rw [escape]
  split
  · next h => subst h; rfl
  split
  · next h => subst h; rfl
  split
  · next h => rw [eq_of_toNat 8 h]; rfl
  split
  · next h => rw [eq_of_toNat 9 h]; rfl
  split
  · next h => rw [eq_of_toNat 10 h]; rfl
  split
  · next h => rw [eq_of_toNat 12 h]; rfl
  split
  · next h => rw [eq_of_toNat 13 h]; rfl
  split
  · next hquote hslash h8 h9 h10 h12 h13 hlt =>
    simp [readPieces, hexUnit?_of_lt _ hlt, pieceOf, hlt, h8, h9, h10, h12, h13]
  · next hquote hslash h8 h9 h10 h12 h13 hge =>
    simp [readPieces, pieceOf, hge, hslash]

theorem readPieces_escaped (cs rest : List Char) :
    readPieces (cs.flatMap escape ++ '"' :: rest) = some (cs.map pieceOf, rest) := by
  induction cs with
  | nil => rfl
  | cons c cs ih =>
      rw [List.flatMap_cons, List.append_assoc, readPieces_escape, ih]
      rfl

/-- A numeric escape is only written for a character, never for half of one. -/
theorem joinPieces_map_pieceOf (cs : List Char) : joinPieces (cs.map pieceOf) = some cs := by
  have hunit {n : Nat} (hlt : n < 32) : isLeading n = false ∧ isTrailing n = false := by
    simp only [isLeading, isTrailing, Bool.and_eq_false_iff, decide_eq_false_iff_not]
    omega
  induction cs with
  | nil => rfl
  | cons c cs ih =>
      rw [List.map_cons]
      by_cases hescaped : c.toNat < 32 ∧ c.toNat ∉ [8, 9, 10, 12, 13]
      · have hpiece : pieceOf c = .unit c.toNat := if_pos hescaped
        obtain ⟨hleading, htrailing⟩ := hunit hescaped.1
        rw [hpiece, joinPieces.eq_def]
        cases hrest : cs.map pieceOf with
        | nil =>
            rw [hrest] at ih
            simp [hleading, htrailing, ih]
        | cons p ps =>
            rw [hrest] at ih
            cases p with
            | char c' => simp [hleading, htrailing, ih]
            | unit n => simp [hleading, htrailing, ih]
      · have hpiece : pieceOf c = .char c := if_neg hescaped
        rw [hpiece, joinPieces, ih]
        rfl

theorem printText_eq_cons (t : Option String) : printText t = '"' :: (printText t).tail := by
  cases t <;> rfl

theorem readText_printText (t : Option String) (rest : List Char) :
    readText ((printText t).tail ++ rest) = some (t, rest) := by
  cases t with
  | none => rfl
  | some s =>
      have htail : (printText (some s)).tail ++ rest = s.toList.flatMap escape ++ '"' :: rest := by
        simp [printText]
      rw [htail, readText, readPieces_escaped]
      simp [joinPieces_map_pieceOf]

/-! ### Numbers -/

/-- What may follow a value. -/
def Follows (rest : List Char) : Prop := ∀ c ∈ rest.head?, c = ',' ∨ c = ']' ∨ c = '\x7d'

theorem takeWhile_digits {rest : List Char} (h : Follows rest) (n : Nat) :
    (Decimal.digits n ++ rest).takeWhile Char.isDigit = Decimal.digits n ∧
      (Decimal.digits n ++ rest).dropWhile Char.isDigit = rest := by
  have hall : ∀ c ∈ Decimal.digits n, c.isDigit := fun c hc => Decimal.isDigit_of_mem_digits hc
  have hrest : rest.takeWhile Char.isDigit = [] ∧ rest.dropWhile Char.isDigit = rest := by
    cases rest with
    | nil => exact ⟨rfl, rfl⟩
    | cons c rest =>
        have hc : c.isDigit = false := by
          rcases h c rfl with rfl | rfl | rfl <;> rfl
        simp [hc]
  rw [List.takeWhile_append_of_pos hall, List.dropWhile_append_of_pos hall, hrest.1, hrest.2]
  simp

theorem readUnsigned_digits {rest : List Char} (h : Follows rest) (negative : Bool) (n : Nat) :
    readUnsigned negative (Decimal.digits n ++ rest) =
      some (ofLiteral negative (Decimal.digits n) [], rest) := by
  obtain ⟨htake, hdrop⟩ := takeWhile_digits h n
  have hne : Decimal.digits n ≠ [] := Nat.toDigits_ne_nil
  have hhead : ¬((Decimal.digits n).head? = some '0' ∧ Decimal.digits n ≠ ['0']) :=
    fun hzero => hzero.2 (Decimal.digits_eq_of_head hzero.1)
  have hfraction : readFraction rest = some ([], rest) := by
    cases rest with
    | nil => rfl
    | cons c rest => rcases h c rfl with rfl | rfl | rfl <;> rfl
  have hexponent : readExponent rest = some ([], rest) := by
    cases rest with
    | nil => rfl
    | cons c rest => rcases h c rfl with rfl | rfl | rfl <;> rfl
  simp [readUnsigned, htake, hdrop, hne, hhead, hfraction, hexponent]

theorem readNumber_ofInt {rest : List Char} (h : Follows rest) (n : Int) :
    readNumber ((Decimal.ofInt n).toList ++ rest) = some (.int n, rest) := by
  cases n with
  | ofNat n =>
      have hchars : (Decimal.ofInt (.ofNat n)).toList = Decimal.digits n := by
        simp [Decimal.ofInt, Decimal.ofNat]
      have hunsigned : readNumber (Decimal.digits n ++ rest) =
          readUnsigned false (Decimal.digits n ++ rest) := by
        rw [readNumber.eq_def]
        split
        · next rest' hminus =>
          have hne : Decimal.digits n ≠ [] := Nat.toDigits_ne_nil
          obtain ⟨c, cs, hdigits⟩ := List.exists_cons_of_ne_nil hne
          have hmem : c ∈ Decimal.digits n := hdigits ▸ List.mem_cons_self
          have hc := Decimal.isDigit_of_mem_digits hmem
          rw [hdigits] at hminus
          obtain rfl := (List.cons.inj hminus).1
          cases hc
        · rfl
      rw [hchars, hunsigned, readUnsigned_digits h]
      simp [ofLiteral, Decimal.value_digits]
  | negSucc n =>
      have hchars : (Decimal.ofInt (.negSucc n)).toList = '-' :: Decimal.digits (n + 1) := by
        simp [Decimal.ofInt, Decimal.ofNat]
      rw [hchars]
      show readUnsigned true (Decimal.digits (n + 1) ++ rest) = _
      rw [readUnsigned_digits h]
      simp only [ofLiteral, if_true, Decimal.value_digits]
      rfl

/-! ### Values -/

/-- A value in which all numbers are integers. -/
inductive Plain : Json → Prop
  | null : Plain .null
  | bool (b : Bool) : Plain (.bool b)
  | int (n : Int) : Plain (.int n)
  | string (t : Option String) : Plain (.string t)
  | array {items : List Json} (plain : ∀ v ∈ items, Plain v) : Plain (.array items)
  | object {members : List (Option String × Json)} (plain : ∀ m ∈ members, Plain m.2) :
    Plain (.object members)

/-- A value reads back with enough nested calls, whatever may follow it. -/
def ReadsBack (v : Json) : Prop :=
  ∀ n rest, Follows rest → 2 * v.print.length ≤ n → readValue n (v.print ++ rest) = some (v, rest)

theorem ne_of_isDigit {c c' : Char} (h : c.isDigit) (h' : c'.isDigit = false) : c ≠ c' := by
  rintro rfl
  rw [h'] at h
  cases h

theorem skipBlank_of_isDigit {c : Char} (h : c.isDigit) (cs : List Char) :
    skipBlank (c :: cs) = c :: cs := by
  have hspace : c ≠ ' ' := ne_of_isDigit h rfl
  have hnewline : c ≠ '\n' := ne_of_isDigit h rfl
  have hreturn : c ≠ '\r' := ne_of_isDigit h rfl
  have htab : c ≠ '\t' := ne_of_isDigit h rfl
  simp [skipBlank, hspace, hnewline, hreturn, htab]

theorem readValue_of_number {c : Char} (h : c = '-' ∨ c.isDigit) (n : Nat) (cs : List Char) :
    readValue (n + 1) (c :: cs) = readNumber (c :: cs) := by
  rcases h with rfl | h
  · rfl
  · rw [readValue, skipBlank_of_isDigit h]
    -- Every other kind of value begins with something that is no digit.
    split
    all_goals first
      | rfl
      | next heq => exact (ne_of_isDigit h (by rfl) (List.cons.inj heq).1).elim

theorem print_int_eq_cons (n : Int) :
    ∃ c cs, (Json.int n).print = c :: cs ∧ (c = '-' ∨ c.isDigit) := by
  cases n with
  | ofNat n =>
      have hne : Decimal.digits n ≠ [] := Nat.toDigits_ne_nil
      obtain ⟨c, cs, hdigits⟩ := List.exists_cons_of_ne_nil hne
      have hmem : c ∈ Decimal.digits n := hdigits ▸ List.mem_cons_self
      exact ⟨c, cs, by simp [print, Decimal.ofInt, Decimal.ofNat, hdigits],
        .inr (Decimal.isDigit_of_mem_digits hmem)⟩
  | negSucc n =>
      exact ⟨'-', Decimal.digits (n + 1), by simp [print, Decimal.ofInt, Decimal.ofNat], .inl rfl⟩

/-- A value begins with a character that is neither blank nor closes anything. -/
theorem print_eq_cons {v : Json} (h : v.Plain) :
    ∃ c cs, v.print = c :: cs ∧ c ≠ ']' ∧ ∀ rest, skipBlank (c :: rest) = c :: rest := by
  cases h with
  | null => exact ⟨'n', _, rfl, by decide, fun _ => rfl⟩
  | bool b =>
      cases b
      · exact ⟨'f', _, rfl, by decide, fun _ => rfl⟩
      · exact ⟨'t', _, rfl, by decide, fun _ => rfl⟩
  | int n =>
      obtain ⟨c, cs, hprint, hc⟩ := print_int_eq_cons n
      refine ⟨c, cs, hprint, ?_⟩
      rcases hc with rfl | hc
      · exact ⟨by decide, fun _ => rfl⟩
      · exact ⟨ne_of_isDigit hc rfl, skipBlank_of_isDigit hc⟩
  | string t => exact ⟨'"', _, printText_eq_cons t, by decide, fun _ => rfl⟩
  | @array items _ =>
      cases items
      · exact ⟨'[', _, rfl, by decide, fun _ => rfl⟩
      · exact ⟨'[', _, rfl, by decide, fun _ => rfl⟩
  | @object members _ =>
      cases members
      · exact ⟨'\x7b', _, rfl, by decide, fun _ => rfl⟩
      · exact ⟨'\x7b', _, rfl, by decide, fun _ => rfl⟩

theorem readItems_print {v : Json} {vs : List Json} (hv : v.ReadsBack)
    (hvs : ∀ v ∈ vs, ReadsBack v) (n : Nat) (rest : List Char)
    (hn : 2 * (v.print.length + (printItems vs).length) ≤ n + 1) :
    readItems n (v.print ++ (printItems vs ++ rest)) = some (v :: vs, rest) := by
  induction vs generalizing v n with
  | nil =>
      have hlength : (printItems []).length = 1 := rfl
      obtain ⟨n, rfl⟩ : ∃ m, n = m + 1 := ⟨n - 1, by omega⟩
      rw [readItems, hv n _ (by rintro c ⟨⟩; exact .inr (.inl rfl)) (by omega)]
      rfl
  | cons v' vs ih =>
      have hlength : (printItems (v' :: vs)).length =
          1 + (v'.print.length + (printItems vs).length) := by
        simp [printItems]
        omega
      have hpos : 0 < (printItems vs).length := by
        cases vs <;> simp [printItems]
      obtain ⟨n, rfl⟩ : ∃ m, n = m + 1 := ⟨n - 1, by omega⟩
      have hrest := ih (hvs v' (by simp)) (fun v hv => hvs v (by simp [hv])) n (by omega)
      have happend :
          printItems (v' :: vs) ++ rest = ',' :: (v'.print ++ (printItems vs ++ rest)) := by
        simp [printItems]
      rw [happend, readItems, hv n _ (by rintro c ⟨⟩; exact .inl rfl) (by omega)]
      show ((readItems n (v'.print ++ (printItems vs ++ rest))).map _) = _
      rw [hrest]
      rfl

theorem readMembers_print {k : Option String} {v : Json} {ms : List (Option String × Json)}
    (hv : v.ReadsBack) (hms : ∀ m ∈ ms, ReadsBack m.2) (n : Nat) (rest : List Char)
    (hn : 2 * (v.print.length + (printMembers ms).length) ≤ n + 1) :
    readMembers n (printText k ++ (':' :: (v.print ++ (printMembers ms ++ rest)))) =
      some ((k, v) :: ms, rest) := by
  induction ms generalizing k v n with
  | nil =>
      have hlength : (printMembers []).length = 1 := rfl
      obtain ⟨n, rfl⟩ : ∃ m, n = m + 1 := ⟨n - 1, by omega⟩
      rw [printText_eq_cons, List.cons_append, readMembers]
      show (readText _).bind _ = _
      rw [readText_printText]
      show (readValue n _).bind _ = _
      rw [hv n _ (by rintro c ⟨⟩; exact .inr (.inr rfl)) (by omega)]
      rfl
  | cons m ms ih =>
      obtain ⟨k', v'⟩ := m
      have hlength : (printMembers ((k', v') :: ms)).length =
          2 + (printText k').length + (v'.print.length + (printMembers ms).length) := by
        simp [printMembers]
        omega
      have hpos : 0 < (printMembers ms).length := by
        cases ms with
        | nil => exact Nat.one_pos
        | cons m ms =>
            obtain ⟨k, v⟩ := m
            simp [printMembers]
      obtain ⟨n, rfl⟩ : ∃ m, n = m + 1 := ⟨n - 1, by omega⟩
      have hv' : v'.ReadsBack := hms _ List.mem_cons_self
      have hrest := ih (k := k') hv' (fun m hm => hms m (List.mem_cons_of_mem _ hm)) n (by omega)
      have happend : printMembers ((k', v') :: ms) ++ rest =
          ',' :: (printText k' ++ (':' :: (v'.print ++ (printMembers ms ++ rest)))) := by
        simp [printMembers]
      rw [happend, printText_eq_cons, List.cons_append, readMembers]
      show (readText _).bind _ = _
      rw [readText_printText]
      show (readValue n _).bind _ = _
      rw [hv n _ (by rintro c ⟨⟩; exact .inl rfl) (by omega)]
      show ((readMembers n _).map _) = _
      rw [hrest]
      rfl

/-- After an opening bracket come items, unless it is closed at once. -/
theorem readValue_of_items {c : Char} {cs : List Char} (hopen : c ≠ ']')
    (hskip : skipBlank (c :: cs) = c :: cs) (n : Nat) :
    readValue (n + 1) ('[' :: c :: cs) =
      (readItems n (c :: cs)).map fun (vs, rest) => (.array vs, rest) := by
  have hbracket : skipBlank ('[' :: c :: cs) = '[' :: c :: cs := rfl
  rw [readValue, hbracket]
  split
  case h_5 rest heq =>
    obtain rfl := (List.cons.inj heq).2
    rw [hskip]
    split
    · next heq => exact (hopen (List.cons.inj heq).1).elim
    · rfl
  -- Whatever else a value starts with, it is not a bracket.
  all_goals simp_all

theorem Plain.readsBack {v : Json} (h : v.Plain) : v.ReadsBack := by
  induction h with
  | null =>
      rintro (- | n) rest - hn
      · cases hn
      · rfl
  | bool b =>
      rintro (- | n) rest - hn
      · cases b <;> cases hn
      · cases b <;> rfl
  | int k =>
      intro n rest hrest hn
      obtain ⟨c, cs, hprint, hc⟩ := print_int_eq_cons k
      obtain ⟨n, rfl⟩ : ∃ m, n = m + 1 := ⟨n - 1, by rw [hprint, List.length_cons] at hn; omega⟩
      rw [hprint, List.cons_append, readValue_of_number hc, ← List.cons_append, ← hprint]
      exact readNumber_ofInt hrest k
  | string t =>
      rintro n rest - hn
      have hprint : (Json.string t).print = '"' :: (printText t).tail := printText_eq_cons t
      obtain ⟨n, rfl⟩ : ∃ m, n = m + 1 := ⟨n - 1, by rw [hprint, List.length_cons] at hn; omega⟩
      rw [hprint, List.cons_append]
      show (readText _).map _ = _
      rw [readText_printText]
      rfl
  | @array items hplain ih =>
      rintro (- | n) rest - hn
      · cases items <;> cases hn
      cases items with
      | nil => rfl
      | cons v vs =>
          have hprint : (Json.array (v :: vs)).print = '[' :: (v.print ++ printItems vs) := rfl
          obtain ⟨c, cs, hv, hopen, hskip⟩ := print_eq_cons (hplain v List.mem_cons_self)
          have hitems := readItems_print (ih v List.mem_cons_self)
            (fun v hv => ih v (List.mem_cons_of_mem _ hv)) n rest (by
              rw [hprint, List.length_cons, List.length_append] at hn
              omega)
          rw [hprint, List.cons_append, List.append_assoc, hv, List.cons_append]
          rw [hv, List.cons_append] at hitems
          rw [readValue_of_items hopen (hskip _), hitems]
          rfl
  | @object members hplain ih =>
      rintro (- | n) rest - hn
      · cases members <;> cases hn
      cases members with
      | nil => rfl
      | cons m ms =>
          obtain ⟨k, v⟩ := m
          have hprint : (Json.object ((k, v) :: ms)).print =
              '\x7b' :: (printText k ++ (':' :: (v.print ++ printMembers ms))) := by
            simp [print]
          have hv : v.ReadsBack := ih _ List.mem_cons_self
          have hmembers := readMembers_print (k := k) hv
            (fun m hm => ih m (List.mem_cons_of_mem _ hm)) n rest (by
              rw [hprint] at hn
              simp only [List.length_cons, List.length_append] at hn
              omega)
          have happend : (Json.object ((k, v) :: ms)).print ++ rest =
              '\x7b' :: (printText k ++ (':' :: (v.print ++ (printMembers ms ++ rest)))) := by
            simp [hprint]
          rw [happend, printText_eq_cons, List.cons_append]
          rw [printText_eq_cons, List.cons_append] at hmembers
          show ((readMembers n _).map _) = _
          rw [hmembers]
          rfl

/-- What is written as JSON reads back. -/
theorem read?_render {v : Json} (h : v.Plain) : read? v.render = some v := by
  have hread := h.readsBack (2 * v.print.length + 2) [] (by rintro c ⟨⟩) (by omega)
  rw [List.append_nil] at hread
  rw [read?, render, String.toList_ofList, readChars?, hread]
  rfl

end Json

end WordDuel
