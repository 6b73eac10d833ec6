import WordDuel.Proofs.Numerals
import WordDuel.Proofs.WordLists
import WordDuel.Settings.Variable
/-!
# WordDuel.Proofs.Settings

**Which variables make settings.** Settings are accepted exactly if every variable that is read
says something and the four rules hold, and then they are what the variables state. If they are
refused, the first variable in order that says nothing is named, or, if there is none, the
variables of the first rule that is broken. And settings that can be accepted at all are accepted
from however they are written (`ofVariables_spec`).

The variables that are read go one after the other, whatever comes of their values: reading
settings is a pass over the list of the variables, and then a check of the values
(`ofVariables_eq`). So what is the first to go wrong is found by induction on the list.
-/

namespace WordDuel

/-- The first member of a list that has a property. -/
def IsFirst {α : Type} (l : List α) (p : α → Prop) (a : α) : Prop :=
  ∃ before after : List α, l = before ++ a :: after ∧ (∀ b ∈ before, ¬p b) ∧ p a

/-- A message names a variable if the name stands in it. -/
def Names (message key : String) : Prop := ∃ front back : String, message = front ++ key ++ back

namespace Text

/-! ### White space around a text -/

theorem trimmed_of_forall {cs : List Char} (h : ∀ c ∈ cs, isBlank c = false) : Trimmed cs where
  first c hc := h c (List.mem_of_head? hc)
  last c hc := h c (List.mem_of_getLast? hc)

theorem isBlank_of_isDigit {c : Char} (h : c.isDigit) : isBlank c = false := by
  have hall : ∀ n < 58, 48 ≤ n → isBlank (Char.ofNat n) = false := by decide
  have hdigit : c.isDigit = (decide (48 ≤ c.val) && decide (c.val ≤ 57)) := rfl
  rw [hdigit, Bool.and_eq_true, decide_eq_true_eq, decide_eq_true_eq] at h
  have hlow : 48 ≤ c.toNat := UInt32.le_iff_toNat_le.1 h.1
  have hhigh : c.toNat ≤ 57 := UInt32.le_iff_toNat_le.1 h.2
  have hc := hall c.toNat (by omega) hlow
  rwa [Char.ofNat_toNat] at hc

theorem trimChars_append {before cs after : List Char} (hbefore : ∀ c ∈ before, isBlank c)
    (hcs : Trimmed cs) (hne : cs ≠ []) (hafter : ∀ c ∈ after, isBlank c) :
    trimChars (before ++ (cs ++ after)) = cs := by
  have hfront : (cs ++ after).dropWhile isBlank = cs ++ after := by
    refine dropWhile_of_head? ?_
    obtain ⟨c, rest, rfl⟩ := List.exists_cons_of_ne_nil hne
    exact hcs.first
  have hback : cs.reverse.dropWhile isBlank = cs.reverse := by
    refine dropWhile_of_head? ?_
    rw [List.head?_reverse]
    exact hcs.last
  rw [trimChars, List.dropWhile_append_of_pos hbefore, hfront, List.reverse_append,
    List.dropWhile_append_of_pos fun c hc => hafter c (List.mem_reverse.1 hc), hback,
    List.reverse_reverse]

theorem trim_trim (s : String) : trim (trim s) = trim s := by
  have htrimmed := trimChars_of_trimmed (trimmed_trimChars s.toList)
  rw [trim, trim, String.toList_ofList, htrimmed]

/-! ### Capitals for small letters -/

theorem toLower_of_le {c : Char} (h : 0x80 ≤ c.toNat) : c.toLower = c := by
  refine dif_neg fun hcapital => ?_
  have hhigh : c.toNat ≤ 90 := UInt32.le_iff_toNat_le.1 hcapital.2
  omega

/-- A letter has become a small one if it was that or its capital. -/
theorem toLower_eq_iff {c d : Char} (hd : d.isLower) : c.toLower = d ↔ c = d ∨ c = d.toUpper := by
  have hdown : ∀ n < 0x80, (Char.ofNat n).toLower.isLower →
      Char.ofNat n = (Char.ofNat n).toLower ∨ Char.ofNat n = (Char.ofNat n).toLower.toUpper := by
    decide
  have hup : ∀ n < 0x80, (Char.ofNat n).isLower →
      (Char.ofNat n).toLower = Char.ofNat n ∧ (Char.ofNat n).toUpper.toLower = Char.ofNat n := by
    decide
  -- Letters that have small ones are ASCII, so there are finitely many cases.
  constructor
  · rintro rfl
    by_cases hascii : c.toNat < 0x80
    · have hc := hdown c.toNat hascii
      rw [Char.ofNat_toNat] at hc
      exact hc hd
    · exact .inl (toLower_of_le (Nat.le_of_not_lt hascii)).symm
  · have hascii : d.toNat < 0x80 := by
      have hlower : d.isLower = (decide (97 ≤ d.val) && decide (d.val ≤ 122)) := rfl
      rw [hlower, Bool.and_eq_true, decide_eq_true_eq, decide_eq_true_eq] at hd
      have hlast : d.toNat ≤ 122 := UInt32.le_iff_toNat_le.1 hd.2
      omega
    have hsmall := hup d.toNat hascii
    rw [Char.ofNat_toNat] at hsmall
    rintro (rfl | rfl)
    · exact (hsmall hd).1
    · exact (hsmall hd).2

end Text

namespace Settings

/-! ### Single values -/

theorem mapError_eq_ok_iff {α ε ε' : Type} {f : ε → ε'} {x : Except ε α} {a : α} :
    x.mapError f = .ok a ↔ x = .ok a := by
  cases x with
  | ok b =>
      constructor
      · rintro ⟨⟩
        rfl
      · rintro ⟨⟩
        rfl
  | error e => exact ⟨nofun, nofun⟩

namespace Kind

theorem spells_iff {text name : List Char} (hname : ∀ d ∈ name, d.isLower) :
    Spells text name ↔ text.map Char.toLower = name := by
  induction text generalizing name with
  | nil => cases name <;> simp [Spells]
  | cons c text ih =>
      cases name with
      | nil => simp [Spells]
      | cons d name =>
          rw [List.forall_mem_cons] at hname
          rw [Spells, List.map_cons, List.cons.injEq, Text.toLower_eq_iff hname.1, ih hname.2]

theorem readNumber_eq_ok_iff {bound n : Nat} {text : String} :
    readNumber bound text = .ok n ↔ Decimal.Denotes text.toList n ∧ n ≤ bound := by
  rw [readNumber, mapError_eq_ok_iff, Decimal.readUpTo_eq_ok_iff]

theorem readTruth_eq_ok_iff {text : String} {b : Bool} :
    readTruth text = .ok b ↔ text = truthName b := by
  rw [readTruth]
  split
  · next htrue => cases b <;> simp [htrue, truthName]
  · next htrue =>
    split
    · next hfalse => cases b <;> simp [hfalse, truthName]
    · next hfalse => cases b <;> simp [htrue, hfalse, truthName]

theorem readBackend_eq_ok_iff {text : String} {b : LockBackend} :
    readBackend text = .ok b ↔ Text.lowerAscii (Text.trim text) = b.name := by
  simp only [readBackend]
  split
  · next hinProcess => cases b <;> simp [hinProcess, LockBackend.name]
  · next hinProcess =>
    split
    · next hshared => cases b <;> simp [hshared, LockBackend.name]
    · next hshared => cases b <;> simp [hinProcess, hshared]

theorem readBackend_trim_eq_ok_iff {raw : String} {b : LockBackend} :
    readBackend (Text.trim raw) = .ok b ↔ Spells (Text.trim raw).toList b.name.toList := by
  have hname : b.name.toList.all Char.isLower := by cases b <;> decide
  rw [readBackend_eq_ok_iff, Text.trim_trim, spells_iff (List.all_eq_true.1 hname),
    Text.lowerAscii, ← String.toList_inj, String.toList_ofList]

/-- What is read is what the text means. -/
theorem read_eq_ok_iff (k : Kind) (raw : String) (a : k.Value) :
    k.read (Text.trim raw) = .ok a ↔ k.Means (Text.trim raw) a := by
  cases k with
  | number bound =>
      rw [read, Means]
      exact readNumber_eq_ok_iff
  | truth =>
      rw [read, Means]
      exact readTruth_eq_ok_iff
  | backend =>
      rw [read, Means]
      exact readBackend_trim_eq_ok_iff

/-! ### Writing single values -/

theorem spells_self (name : List Char) : Spells name name := by
  induction name with
  | nil => trivial
  | cons d name ih => exact ⟨.inl rfl, ih⟩

theorem isBlank_of_mem_write {k : Kind} {zeros : Nat} {a : k.Value} :
    ∀ c ∈ k.write zeros a, Text.isBlank c = false := by
  cases k with
  | number bound =>
      rw [write]
      exact fun c hc => Text.isBlank_of_isDigit (Decimal.isDigit_of_mem_padding hc)
  | truth =>
      have hname : (truthName a).toList.all fun c => !Text.isBlank c := by cases a <;> decide
      simpa [write] using hname
  | backend =>
      have hname : a.name.toList.all fun c => !Text.isBlank c := by cases a <;> decide
      simpa [write] using hname

theorem write_ne_nil {k : Kind} {zeros : Nat} {a : k.Value} : k.write zeros a ≠ [] := by
  cases k with
  | number bound => exact Decimal.padding_ne_nil zeros a
  | truth =>
      rw [write]
      cases a <;> decide
  | backend =>
      rw [write]
      cases a <;> decide

theorem means_write {k : Kind} {a : k.Value} (h : k.Fits a) (zeros : Nat) {text : String}
    (htext : text.toList = k.write zeros a) : k.Means text a := by
  cases k with
  | number bound =>
      rw [Means, htext]
      exact ⟨Decimal.denotes_padding zeros a, h⟩
  | truth =>
      rw [Means]
      exact String.toList_inj.1 htext
  | backend =>
      rw [Means, htext]
      exact spells_self _

/-- A value that is written means what it is, whatever the layout. -/
theorem means_layout {k : Kind} {a : k.Value} (h : k.Fits a) (l : Layout) :
    k.Means (Text.trim (l.write k a)) a := by
  refine means_write h l.zeros ?_
  rw [Text.trim, Layout.write, String.toList_ofList, String.toList_ofList]
  exact Text.trimChars_append (List.all_eq_true.1 l.isBlank_before)
    (Text.trimmed_of_forall isBlank_of_mem_write) write_ne_nil
    (List.all_eq_true.1 l.isBlank_after)

end Kind

/-! ### Single variables -/

section Reading

variable {lookup : String → Option String} {v : Variable} {fault : Fault}

namespace Variable

theorem mem_inOrder (v : Variable) : v ∈ inOrder := by
  cases v <;> decide

theorem readFrom_eq_ok_iff {a : v.kind.Value} : v.readFrom lookup = .ok a ↔ v.Says lookup a := by
  rw [readFrom, readOr, Says]
  cases lookup v.key with
  | none =>
      dsimp only
      rw [Except.ok.injEq, eq_comm]
  | some raw => exact mapError_eq_ok_iff.trans (v.kind.read_eq_ok_iff raw a)

theorem isLegible_iff : v.IsLegible lookup ↔ ∃ a, v.readFrom lookup = .ok a :=
  exists_congr fun _ => readFrom_eq_ok_iff.symm

/-- What a variable that says nothing is reported with. -/
theorem of_readFrom_eq_error (h : v.readFrom lookup = .error fault) :
    ¬v.IsLegible lookup ∧
      ∃ raw cause, lookup v.key = some raw ∧ fault = .invalid v.key raw cause := by
  refine ⟨fun hlegible => ?_, ?_⟩
  · obtain ⟨a, ha⟩ := isLegible_iff.1 hlegible
    rw [h] at ha
    cases ha
  · rw [readFrom, readOr] at h
    cases hraw : lookup v.key with
    | none =>
        rw [hraw] at h
        cases h
    | some raw =>
        rw [hraw] at h
        dsimp only at h
        cases hread : v.kind.read (Text.trim raw) with
        | ok a =>
            rw [hread] at h
            cases h
        | error cause =>
            rw [hread] at h
            exact ⟨raw, cause, rfl, (Except.error.inj h).symm⟩

/-! ### One variable after the other -/

/-- Read variables, and go on if all of them can be read. -/
def readThen {β : Type} (lookup : String → Option String) (vs : List Variable)
    (last : Except Fault β) : Except Fault β :=
  vs.foldr (fun v rest => v.readFrom lookup >>= fun _ => rest) last

variable {β : Type} {last : Except Fault β} {vs : List Variable}

theorem readThen_of_isLegible (h : ∀ v ∈ vs, v.IsLegible lookup) :
    readThen lookup vs last = last := by
  induction vs with
  | nil => rfl
  | cons v vs ih =>
      rw [List.forall_mem_cons] at h
      obtain ⟨a, ha⟩ := isLegible_iff.1 h.1
      rw [readThen, List.foldr_cons, ha]
      exact ih h.2

/-- What goes wrong is the first variable that says nothing, if there is one. -/
theorem exists_isFirst_of_not_isLegible (h : ¬∀ v ∈ vs, v.IsLegible lookup) :
    ∃ v fault, IsFirst vs (fun w => ¬w.IsLegible lookup) v ∧ v.readFrom lookup = .error fault ∧
      readThen lookup vs last = .error fault := by
  induction vs with
  | nil => exact absurd (fun v hv => nomatch hv) h
  | cons v vs ih =>
      rw [readThen, List.foldr_cons]
      cases hread : v.readFrom lookup with
      | error fault =>
          exact ⟨v, fault, ⟨[], vs, rfl, nofun, (of_readFrom_eq_error hread).1⟩, hread, rfl⟩
      | ok a =>
          have hv : v.IsLegible lookup := isLegible_iff.2 ⟨a, hread⟩
          rw [List.forall_mem_cons, not_and] at h
          obtain ⟨w, fault, ⟨before, after, rfl, hbefore, hw⟩, hfault, hthen⟩ := ih (h hv)
          refine ⟨w, fault, ⟨v :: before, after, rfl, ?_, hw⟩, hfault, hthen⟩
          rw [List.forall_mem_cons]
          exact ⟨not_not_intro hv, hbefore⟩

end Variable

/-! ### All variables -/

/-- The settings that consist of some values, with the variables that are taken as they stand. -/
def ofValues (lookup : String → Option String) (a : (v : Variable) → v.kind.Value) : Settings where
  databaseUrl := (lookup "DATABASE_URL").getD "sqlite://wordle_duel.db?mode=rwc"
  wordsDirectory := (lookup "WORDS_DIRECTORY").getD "./words"
  wordLength := a .wordLength
  maxAttempts := a .maxAttempts
  lockTimeoutMs := a .lockTimeoutMs
  lockBackend := a .lockBackend
  redisUrl := (lookup "REDIS_URL").filter fun url => !Text.isBlankText url
  lockTtlMs := a .lockTtlMs
  exclusiveRowLock := a .exclusiveRowLock
  dictionaryCacheTtlSeconds := a .dictionaryCacheTtlSeconds

theorem get_ofValues (lookup : String → Option String) (a : (v : Variable) → v.kind.Value)
    (v : Variable) : v.get (ofValues lookup a) = a v := by
  cases v <;> rfl

/-- What a variable that says something is read as. -/
def Variable.valueIn (lookup : String → Option String) (v : Variable) : v.kind.Value :=
  (v.readFrom lookup).toOption.getD v.byDefault

theorem Variable.valueIn_eq {a : v.kind.Value} (h : v.readFrom lookup = .ok a) :
    v.valueIn lookup = a := by
  rw [valueIn, h]
  rfl

/-- Who knows how it goes on with the value that comes need not wait for the value. -/
theorem bind_eq_bind_const {α β ε : Type} {x : Except ε α} {f : α → Except ε β} {y : Except ε β}
    (h : ∀ a, x = .ok a → f a = y) : x >>= f = x >>= fun _ => y := by
  cases x with
  | ok a => exact h a rfl
  | error e => rfl

/-- To read settings is to read the variables one after the other and then to check what they
say. -/
theorem ofVariables_eq (lookup : String → Option String) :
    ofVariables lookup = Variable.readThen lookup Variable.inOrder
      (check (ofValues lookup fun v => v.valueIn lookup)) := by
  -- If a variable can be read, `valueIn` tells its value beforehand.
  refine bind_eq_bind_const fun wordLength hwordLength => ?_
  refine bind_eq_bind_const fun maxAttempts hmaxAttempts => ?_
  refine bind_eq_bind_const fun lockTimeoutMs hlockTimeoutMs => ?_
  refine bind_eq_bind_const fun lockBackend hlockBackend => ?_
  refine bind_eq_bind_const fun lockTtlMs hlockTtlMs => ?_
  refine bind_eq_bind_const fun exclusiveRowLock hexclusiveRowLock => ?_
  refine bind_eq_bind_const fun dictionaryCacheTtlSeconds hcacheTtl => ?_
  rw [List.foldr_nil, ofValues, Variable.valueIn_eq (v := .wordLength) hwordLength,
    Variable.valueIn_eq (v := .maxAttempts) hmaxAttempts,
    Variable.valueIn_eq (v := .lockTimeoutMs) hlockTimeoutMs,
    Variable.valueIn_eq (v := .lockBackend) hlockBackend,
    Variable.valueIn_eq (v := .lockTtlMs) hlockTtlMs,
    Variable.valueIn_eq (v := .exclusiveRowLock) hexclusiveRowLock,
    Variable.valueIn_eq (v := .dictionaryCacheTtlSeconds) hcacheTtl]

theorem isBlankText_eq_false_iff {text : String} :
    (!Text.isBlankText text) = true ↔ ∃ c ∈ text.toList, Text.isBlank c = false := by
  simp [Text.isBlankText]

/-- The variables state some settings exactly if all that are read say something, and then they
state what is read. -/
theorem statedBy_iff {s : Settings} : StatedBy lookup s ↔
    (∀ v : Variable, v.IsLegible lookup) ∧ s = ofValues lookup fun v => v.valueIn lookup := by
  constructor
  · intro h
    refine ⟨fun v => ⟨_, h.value v⟩, ?_⟩
    have hvalue (v : Variable) : v.get s = v.valueIn lookup :=
      (Variable.valueIn_eq (Variable.readFrom_eq_ok_iff.2 (h.value v))).symm
    have hurl : s.redisUrl = (lookup "REDIS_URL").filter fun url => !Text.isBlankText url := by
      ext url
      rw [h.redisUrl, Option.filter_eq_some_iff, isBlankText_eq_false_iff]
    cases s
    simp only [ofValues, Settings.mk.injEq]
    exact ⟨h.databaseUrl, h.wordsDirectory, hvalue .wordLength, hvalue .maxAttempts,
      hvalue .lockTimeoutMs, hvalue .lockBackend, hurl, hvalue .lockTtlMs,
      hvalue .exclusiveRowLock, hvalue .dictionaryCacheTtlSeconds⟩
  · rintro ⟨hlegible, rfl⟩
    refine ⟨rfl, rfl, fun url => ?_, fun v => ?_⟩
    · rw [ofValues, Option.filter_eq_some_iff, isBlankText_eq_false_iff]
    · obtain ⟨a, ha⟩ := hlegible v
      rw [get_ofValues, Variable.valueIn_eq (Variable.readFrom_eq_ok_iff.2 ha)]
      exact ha

theorem StatedBy.unique {s s' : Settings} (h : StatedBy lookup s) (h' : StatedBy lookup s') :
    s = s' :=
  (statedBy_iff.1 h).2.trans (statedBy_iff.1 h').2.symm

/-! ### Rules -/

/-- What becomes of settings depends on the first rule that they break, if there is one. -/
theorem check_cases (s : Settings) :
    (check s = .ok s ∧ ∀ r : Rule, r.Holds s) ∨
      ∃ r : Rule, IsFirst Rule.inOrder (fun q => ¬q.Holds s) r ∧ check s = .error r.fault := by
  rw [check]
  split
  · next hlength =>
    exact .inr ⟨.wordLength, ⟨[], _, rfl, nofun, Nat.not_lt.2 (Nat.le_of_eq hlength)⟩, rfl⟩
  next hlength =>
  have h₁ : Rule.wordLength.Holds s := Nat.pos_of_ne_zero hlength
  split
  · next hattempts =>
    exact .inr ⟨.maxAttempts, ⟨[.wordLength], _, rfl, by simp [h₁],
      Nat.not_lt.2 (Nat.le_of_eq hattempts)⟩, rfl⟩
  next hattempts =>
  have h₂ : Rule.maxAttempts.Holds s := Nat.pos_of_ne_zero hattempts
  split
  · next hurl =>
    exact .inr ⟨.redisUrl, ⟨[.wordLength, .maxAttempts], _, rfl, by simp [h₁, h₂],
      fun h => h hurl.1 hurl.2⟩, rfl⟩
  next hurl =>
  have h₃ : Rule.redisUrl.Holds s := fun hshared hnone => hurl ⟨hshared, hnone⟩
  split
  · next httl =>
    exact .inr ⟨.lockTtl, ⟨[.wordLength, .maxAttempts, .redisUrl], _, rfl, by simp [h₁, h₂, h₃],
      Nat.not_lt.2 httl⟩, rfl⟩
  next httl =>
  have h₄ : Rule.lockTtl.Holds s := Nat.lt_of_not_le httl
  refine .inl ⟨rfl, fun r => ?_⟩
  cases r with
  | wordLength => exact h₁
  | maxAttempts => exact h₂
  | redisUrl => exact h₃
  | lockTtl => exact h₄

theorem names_invalid (key raw : String) (cause : ValueFault) :
    Names (Fault.invalid key raw cause).message key :=
  ⟨"Invalid ", ": '" ++ raw ++ "': " ++ cause.message, by simp [Fault.message, String.append_assoc]⟩

theorem names_fault (r : Rule) : ∀ key ∈ r.keys, Names r.fault.message key := by
  cases r with
  | wordLength => exact List.forall_mem_singleton.2 ⟨"", " must be positive", rfl⟩
  | maxAttempts => exact List.forall_mem_singleton.2 ⟨"", " must be positive", rfl⟩
  | redisUrl =>
      refine List.forall_mem_cons.2 ⟨⟨"", "=redis requires REDIS_URL", rfl⟩, ?_⟩
      exact List.forall_mem_singleton.2 ⟨"LOCK_BACKEND=redis requires ", "", rfl⟩
  | lockTtl =>
      refine List.forall_mem_cons.2 ⟨⟨"", " must be greater than LOCK_TIMEOUT_MS", rfl⟩, ?_⟩
      exact List.forall_mem_singleton.2 ⟨"LOCK_TTL_MS must be greater than ", "", rfl⟩

/-- The variables make settings, or one of them says nothing, or what they state breaks a rule. -/
theorem ofVariables_cases (lookup : String → Option String) :
    (∃ s, StatedBy lookup s ∧ (∀ r : Rule, r.Holds s) ∧ ofVariables lookup = .ok s) ∨
    (∃ v fault, IsFirst Variable.inOrder (fun w => ¬w.IsLegible lookup) v ∧
      v.readFrom lookup = .error fault ∧ ofVariables lookup = .error fault) ∨
    ∃ s r, StatedBy lookup s ∧ IsFirst Rule.inOrder (fun q => ¬q.Holds s) r ∧
      ofVariables lookup = .error r.fault := by
  rw [ofVariables_eq]
  by_cases hlegible : ∀ v : Variable, v.IsLegible lookup
  · rw [Variable.readThen_of_isLegible fun v _ => hlegible v]
    have hstated := statedBy_iff.2 ⟨hlegible, rfl⟩
    rcases check_cases (ofValues lookup fun v => v.valueIn lookup) with
      ⟨hok, hrules⟩ | ⟨r, hfirst, herror⟩
    · exact .inl ⟨_, hstated, hrules, hok⟩
    · exact .inr (.inr ⟨_, r, hstated, hfirst, herror⟩)
  · have hlist : ¬∀ v ∈ Variable.inOrder, v.IsLegible lookup :=
      fun h => hlegible fun v => h v v.mem_inOrder
    exact .inr (.inl (Variable.exists_isFirst_of_not_isLegible hlist))

theorem ofVariables_eq_ok_iff {s : Settings} :
    ofVariables lookup = .ok s ↔ StatedBy lookup s ∧ ∀ r : Rule, r.Holds s := by
  rcases ofVariables_cases lookup with ⟨s', hstated, hrules, hok⟩ |
    ⟨v, fault, ⟨_, _, _, _, hillegible⟩, _, herror⟩ |
    ⟨s', r, hstated, ⟨_, _, _, _, hbroken⟩, herror⟩
  · rw [hok, Except.ok.injEq]
    constructor
    · rintro rfl
      exact ⟨hstated, hrules⟩
    · exact fun h => hstated.unique h.1
  · rw [herror]
    constructor
    · rintro ⟨⟩
    · exact fun h => absurd ((statedBy_iff.1 h.1).1 v) hillegible
  · rw [herror]
    constructor
    · rintro ⟨⟩
    · intro h
      rw [hstated.unique h.1] at hbroken
      exact absurd (h.2 r) hbroken

end Reading

/-! ### Writing settings -/

section Writing

variable {s : Settings} {layout : Variable → Layout}

theorem toVariables_key (v : Variable) :
    s.toVariables layout v.key = some ((layout v).write v.kind (v.get s)) := by
  cases v <;> rfl

/-- Settings that can be written are what is stated by what is written. -/
theorem statedBy_toVariables (h : s.Writable) : StatedBy (s.toVariables layout) s where
  databaseUrl := rfl
  wordsDirectory := rfl
  redisUrl url := by
    have hwritten : s.toVariables layout "REDIS_URL" = s.redisUrl := rfl
    rw [hwritten]
    exact ⟨fun hurl => ⟨hurl, h.redisUrl url hurl⟩, fun hurl => hurl.1⟩
  value v := by
    rw [Variable.Says, toVariables_key]
    exact Kind.means_layout (h.fits v) (layout v)

end Writing

/-- Variables make settings exactly if these are what they state and keep to all rules. If
variables make no settings, either one of those that are read says nothing, and then the first one
of them is named; or the settings that the variables state break a rule, and then the variables of
the first such rule are named. Settings that can be written and keep to all rules are read back
from the variables, however these are laid out. -/
theorem ofVariables_spec :
    (∀ (lookup : String → Option String) (s : Settings), ofVariables lookup = .ok s ↔
      StatedBy lookup s ∧ ∀ r : Rule, r.Holds s) ∧
    (∀ (lookup : String → Option String) (fault : Fault), ofVariables lookup = .error fault →
      (∃ (v : Variable) (raw : String) (cause : ValueFault),
        IsFirst Variable.inOrder (fun w => ¬w.IsLegible lookup) v ∧ lookup v.key = some raw ∧
        fault = .invalid v.key raw cause ∧ Names fault.message v.key) ∨
      (∃ (s : Settings) (r : Rule), StatedBy lookup s ∧
        IsFirst Rule.inOrder (fun q => ¬q.Holds s) r ∧
        fault = r.fault ∧ ∀ key ∈ r.keys, Names fault.message key)) ∧
    ∀ (s : Settings) (layout : Variable → Layout), s.Writable → (∀ r : Rule, r.Holds s) →
      ofVariables (s.toVariables layout) = .ok s := by
  refine ⟨fun lookup s => ofVariables_eq_ok_iff, fun lookup fault h => ?_,
    fun s layout hwritable hrules => ?_⟩
  · rcases ofVariables_cases lookup with ⟨s, -, -, hok⟩ | ⟨v, fault', hfirst, hread, herror⟩ |
      ⟨s, r, hstated, hfirst, herror⟩
    · rw [h] at hok
      cases hok
    · obtain rfl := Except.error.inj (h.symm.trans herror)
      obtain ⟨-, raw, cause, hraw, rfl⟩ := Variable.of_readFrom_eq_error hread
      exact .inl ⟨v, raw, cause, hfirst, hraw, rfl, names_invalid v.key raw cause⟩
    · obtain rfl := Except.error.inj (h.symm.trans herror)
      exact .inr ⟨s, r, hstated, hfirst, rfl, names_fault r⟩
  · exact ofVariables_eq_ok_iff.2 ⟨statedBy_toVariables hwritable, hrules⟩

namespace Sample

/-- Settings at the edges of what can be written. -/
def extremeSettings : Settings where
  databaseUrl := ""
  wordsDirectory := " "
  wordLength := 18446744073709551615
  maxAttempts := 4294967295
  lockTimeoutMs := 0
  lockBackend := .shared
  redisUrl := some " redis "
  lockTtlMs := 1
  exclusiveRowLock := true
  dictionaryCacheTtlSeconds := 0

/-- White space of several kinds, and many zeros. -/
def wideLayout : Layout where
  before := [' ', '\u3000']
  zeros := 30
  after := ['\n']

/-- Variables of which two cannot be read, and that break a rule. -/
def faultyVariables : String → Option String
  | "WORD_LENGTH" => some "0"
  | "MAX_ATTEMPTS" => some "4294967296"
  | "LOCK_TTL_MS" => some "-1"
  | _ => none

theorem writable_extremeSettings : extremeSettings.Writable where
  fits v := by cases v <;> decide
  redisUrl url h := by
    obtain rfl := Option.some.inj h
    exact ⟨'r', by decide, by decide⟩

theorem holds_extremeSettings (r : Rule) : r.Holds extremeSettings := by
  cases r <;> decide

end Sample

/-- Extreme settings in a wide layout are read back, and of two variables that cannot be read the
first one is named, although a variable before it breaks a rule. -/
theorem ofVariables_spec_of_extremes :
    Sample.extremeSettings.Writable ∧ (∀ r : Rule, r.Holds Sample.extremeSettings) ∧
      ofVariables (Sample.extremeSettings.toVariables fun _ => Sample.wideLayout) =
        .ok Sample.extremeSettings ∧
      ∃ fault, ofVariables Sample.faultyVariables = .error fault ∧
        ((∃ (v : Variable) (raw : String) (cause : ValueFault),
          IsFirst Variable.inOrder (fun w => ¬w.IsLegible Sample.faultyVariables) v ∧
          Sample.faultyVariables v.key = some raw ∧
          fault = .invalid v.key raw cause ∧ Names fault.message v.key) ∨
        (∃ (s : Settings) (r : Rule), StatedBy Sample.faultyVariables s ∧
          IsFirst Rule.inOrder (fun q => ¬q.Holds s) r ∧
          fault = r.fault ∧ ∀ key ∈ r.keys, Names fault.message key)) := by
  obtain ⟨-, hrefused, hwritten⟩ := ofVariables_spec
  refine ⟨Sample.writable_extremeSettings, Sample.holds_extremeSettings,
    hwritten _ _ Sample.writable_extremeSettings Sample.holds_extremeSettings, ?_⟩
  have hnone : (ofVariables Sample.faultyVariables).toOption = none := by decide +kernel
  cases hread : ofVariables Sample.faultyVariables with
  | ok s =>
      rw [hread] at hnone
      cases hnone
  | error fault => exact ⟨fault, rfl, hrefused _ _ hread⟩

end Settings

end WordDuel
