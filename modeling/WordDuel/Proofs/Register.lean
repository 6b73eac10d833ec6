import WordDuel.Lease.Register
/-!
# WordDuel.Proofs.Register

**Who has had a lease, read off the journal.** Only a claim makes somebody the owner of a key
(`LeaseRegister.owner?_of_after`), so whoever has a lease has had it at every moment since a claim
of theirs was carried out (`LeaseRegister.exists_claim`). A token with which no more than one claim
succeeds has one tenure: once it is over, the token never owns the key again, and no command has
an effect in its name.
-/

namespace WordDuel

namespace LeaseRegister

variable {r : LeaseRegister} {key : String} {token : Token} {command : LeaseCommand}

/-! ### One command -/

theorem carryOut_claim_iff {ttl : Nat} :
    (r.carryOut (.claim key token ttl)).2 = true ↔ r.owner? key = none := by
  show (r.server.run (.claim key token ttl)).2 = true ↔ r.server.owner? key = none
  rw [LeaseServer.run]
  split <;> simp [*]

theorem carryOut_renew_iff {ttl : Nat} :
    (r.carryOut (.renew key token ttl)).2 = true ↔ r.owner? key = some token := by
  show (r.server.run (.renew key token ttl)).2 = true ↔ r.server.owner? key = some token
  rw [LeaseServer.run]
  split <;> simp [*]

theorem carryOut_free_iff :
    (r.carryOut (.free key token)).2 = true ↔ r.owner? key = some token := by
  show (r.server.run (.free key token)).2 = true ↔ r.server.owner? key = some token
  rw [LeaseServer.run]
  split <;> simp [*]

/-- A command without effect leaves the whole server alone. -/
theorem carryOut_of_idle (h : (r.carryOut command).2 = false) : (r.carryOut command).1 = r := by
  have heffect : (r.server.run command).2 = false := h
  have hserver : (r.server.run command).1 = r.server := by
    cases command <;> rw [LeaseServer.run] at heffect ⊢ <;> split at heffect <;> simp_all
  rw [carryOut]
  simp only [heffect, hserver]
  rfl

/-- A command that has an effect finds the key free or in the hands of the token for which it
is sent. -/
theorem owner?_of_effect (h : (r.carryOut command).2 = true) {holder : Token}
    (howner : r.owner? command.key = some holder) : command.token = holder := by
  cases command with
  | claim key token ttl =>
      rw [carryOut_claim_iff] at h
      cases howner.symm.trans h
  | renew key token ttl =>
      rw [carryOut_renew_iff] at h
      exact Option.some.inj (h.symm.trans howner)
  | free key token =>
      rw [carryOut_free_iff] at h
      exact Option.some.inj (h.symm.trans howner)

/-- A command has to do with its own key only. -/
theorem entry_carryOut_of_ne (hne : key ≠ command.key) :
    (r.carryOut command).1.entry key = r.entry key := by
  have hserver : (r.server.run command).1.tenures.get? key = r.server.tenures.get? key := by
    cases command <;> rw [LeaseServer.run] <;> split <;>
      simp_all [LeaseServer.file, LeaseServer.expire, LeaseCommand.key,
        SortedMap.get?_insert_of_ne, SortedMap.get?_erase_of_ne]
  have hdeadlines : (command.reset r.now r.deadlines).get? key = r.deadlines.get? key := by
    cases command <;>
      simp_all [LeaseCommand.reset, LeaseCommand.key, SortedMap.get?_insert_of_ne,
        SortedMap.get?_erase_of_ne]
  have hreset : (if (r.server.run command).2 then command.reset r.now r.deadlines
      else r.deadlines).get? key = r.deadlines.get? key := by
    split
    · exact hdeadlines
    · rfl
  exact Prod.ext hserver hreset

/-- A command leaves the leases of other tokens alone, and lets none of them last longer or
shorter. -/
theorem entry_carryOut {holder : Token} (howner : r.owner? key = some holder)
    (hne : command.token ≠ holder) : (r.carryOut command).1.entry key = r.entry key := by
  by_cases hkey : key = command.key
  · have hidle : (r.carryOut command).2 = false := by
      rw [← Bool.not_eq_true]
      intro heffect
      exact hne (owner?_of_effect heffect (hkey ▸ howner))
    rw [carryOut_of_idle hidle]
  · exact entry_carryOut_of_ne hkey

/-! ### One event -/

/-- Only a claim makes somebody the owner of a key. -/
theorem owner?_of_after {event : LeaseEvent} (h : (r.after event).owner? key = some token) :
    r.owner? key = some token ∨
      ∃ message ttl effect, event = .carried message (.claim key token ttl) effect ∧
        (r.carryOut (.claim key token ttl)).2 = true := by
  cases event with
  | passed ms => exact .inl h
  | expired key' =>
      refine .inl ?_
      replace h : (r.server.expire key').owner? key = some token := h
      rw [LeaseServer.owner?_expire] at h
      split at h
      · cases h
      · exact h
  | carried message command effect =>
      replace h : (r.server.run command).1.owner? key = some token := h
      cases command with
      | claim key' token' ttl =>
          by_cases hfree : r.server.owner? key' = none
          · rw [LeaseServer.run, if_pos hfree, LeaseServer.owner?_file] at h
            split at h
            · next hkey =>
              subst hkey
              obtain rfl : token' = token := Option.some.inj h
              exact .inr ⟨message, ttl, effect, rfl, carryOut_claim_iff.2 hfree⟩
            · exact .inl h
          · rw [LeaseServer.run, if_neg hfree] at h
            exact .inl h
      | renew key' token' ttl =>
          refine .inl ?_
          by_cases howner : r.server.owner? key' = some token'
          · rw [LeaseServer.run, if_pos howner, LeaseServer.owner?_file] at h
            split at h
            · next hkey =>
              subst hkey
              exact howner.trans h
            · exact h
          · rwa [LeaseServer.run, if_neg howner] at h
      | free key' token' =>
          refine .inl ?_
          by_cases howner : r.server.owner? key' = some token'
          · rw [LeaseServer.run, if_pos howner, LeaseServer.owner?_expire] at h
            split at h
            · cases h
            · exact h
          · rwa [LeaseServer.run, if_neg howner] at h

/-! ### The whole journal -/

variable {journal : List LeaseEvent}

theorem replay_concat (journal : List LeaseEvent) (event : LeaseEvent) :
    replay (journal ++ [event]) = (replay journal).after event := by
  rw [replay, List.foldl_append]
  rfl

theorem atMoment_length (journal : List LeaseEvent) :
    atMoment journal journal.length = replay journal := by
  rw [atMoment, List.take_length]

theorem atMoment_succ {moment : Nat} {event : LeaseEvent} (h : journal[moment]? = some event) :
    atMoment journal (moment + 1) = (atMoment journal moment).after event := by
  rw [atMoment, List.take_add_one, h, atMoment, ← replay_concat]
  rfl

/-- After the last event nothing changes. -/
theorem atMoment_succ_of_none {moment : Nat} (h : journal[moment]? = none) :
    atMoment journal (moment + 1) = atMoment journal moment := by
  rw [atMoment, List.take_add_one, h, atMoment]
  simp

/-- The effects that are written down are those that the commands had. -/
def Truthful (journal : List LeaseEvent) : Prop :=
  ∀ moment message command effect, journal[moment]? = some (.carried message command effect) →
    ((atMoment journal moment).carryOut command).2 = effect

theorem truthful_nil : Truthful [] := fun moment _ _ _ h => by simp at h

theorem Truthful.concat (h : Truthful journal) {event : LeaseEvent}
    (hevent : ∀ message command effect, event = .carried message command effect →
      ((replay journal).carryOut command).2 = effect) : Truthful (journal ++ [event]) := by
  intro moment message command effect hget
  rw [List.getElem?_append] at hget
  split at hget
  · next hlt =>
    rw [atMoment, List.take_append_of_le_length (Nat.le_of_lt hlt)]
    exact h moment message command effect hget
  · next hge =>
    obtain ⟨hmoment, hget⟩ := List.getElem?_eq_some_iff.1 hget
    obtain rfl : moment = journal.length := by
      simp only [List.length_singleton] at hmoment
      omega
    rw [atMoment, List.take_left]
    exact hevent message command effect (by simpa using hget)

/-- Whoever has a lease has had it ever since a claim was carried out. -/
theorem exists_claim (h : Truthful journal) {moment : Nat}
    (howner : (atMoment journal moment).owner? key = some token) :
    ∃ start message ttl, start < moment ∧
      journal[start]? = some (.carried message (.claim key token ttl) true) ∧
      ∀ l, start < l → l ≤ moment → (atMoment journal l).owner? key = some token := by
  induction moment with
  | zero => cases howner
  | succ moment ih =>
      -- Up to the last event there is the tenure that was found before, if there is one.
      have hextend (hbefore : (atMoment journal moment).owner? key = some token) :
          ∃ start message ttl, start < moment + 1 ∧
            journal[start]? = some (.carried message (.claim key token ttl) true) ∧
            ∀ l, start < l → l ≤ moment + 1 →
              (atMoment journal l).owner? key = some token := by
        obtain ⟨start, message, ttl, hlt, hclaim, htenure⟩ := ih hbefore
        refine ⟨start, message, ttl, Nat.lt_succ_of_lt hlt, hclaim, fun l hl hle => ?_⟩
        rcases Nat.lt_or_eq_of_le hle with hle | rfl
        · exact htenure l hl (Nat.le_of_lt_succ hle)
        · exact howner
      cases hevent : journal[moment]? with
      | none =>
          rw [atMoment_succ_of_none hevent] at howner
          exact hextend howner
      | some event =>
          have hafter := howner
          rw [atMoment_succ hevent] at hafter
          rcases owner?_of_after hafter with hbefore | ⟨message, ttl, effect, rfl, heffect⟩
          · exact hextend hbefore
          · obtain rfl : true = effect := heffect.symm.trans (h _ _ _ _ hevent)
            refine ⟨moment, message, ttl, Nat.lt_succ_self _, hevent, fun l hl hle => ?_⟩
            obtain rfl : l = moment + 1 := by omega
            exact howner

/-- No more than one claim has been carried out with effect for a token. -/
def ClaimedOnce (journal : List LeaseEvent) (token : Token) : Prop :=
  ∀ (moment moment' : Nat) message message' key key' ttl ttl',
    journal[moment]? = some (.carried message (.claim key token ttl) true) →
    journal[moment']? = some (.carried message' (.claim key' token ttl') true) → moment = moment'

/-- A lease that was lost is not had again under the same token. -/
theorem not_owner_of_lost (h : Truthful journal) (honce : ClaimedOnce journal token)
    {had lost l : Nat} (hle : had ≤ lost) (hhad : (atMoment journal had).owner? key = some token)
    (hlost : (atMoment journal lost).owner? key ≠ some token) (hl : lost ≤ l) :
    (atMoment journal l).owner? key ≠ some token := by
  intro howner
  obtain ⟨start, message, ttl, hstart, hclaim, -⟩ := exists_claim h hhad
  obtain ⟨start', message', ttl', hstart', hclaim', htenure⟩ := exists_claim h howner
  obtain rfl := honce _ _ _ _ _ _ _ _ hclaim hclaim'
  exact hlost (htenure lost (by omega) hl)

theorem not_owner_of_freed {message : MessageId} {effect : Bool} :
    (r.after (.carried message (.free key token) effect)).owner? key ≠
    some token := by
  show (r.server.run (.free key token)).1.owner? key ≠ some token
  rw [LeaseServer.run]
  split
  · rw [LeaseServer.owner?_expire, if_pos rfl]
    exact Option.some_ne_none token |>.symm
  · next hother => exact hother

/-- A lease that has been given back is not given back again. -/
theorem freed_once (h : Truthful journal) (honce : ClaimedOnce journal token) {i j : Nat}
    {message message' : MessageId}
    (hi : journal[i]? = some (.carried message (.free key token) true))
    (hj : journal[j]? = some (.carried message' (.free key token) true)) : i = j := by
  have howner {k : Nat} {message : MessageId}
      (hk : journal[k]? = some (.carried message (.free key token) true)) :
      (atMoment journal k).owner? key = some token := carryOut_free_iff.1 (h _ _ _ _ hk)
  have hlost {k l : Nat} {message message' : MessageId} (hlt : k < l)
      (hk : journal[k]? = some (.carried message (.free key token) true))
      (hl : journal[l]? = some (.carried message' (.free key token) true)) : False := by
    refine not_owner_of_lost h honce (Nat.le_succ k) (howner hk) ?_ hlt (howner hl)
    rw [atMoment_succ hk]
    exact not_owner_of_freed
  rcases Nat.lt_trichotomy i j with hlt | heq | hlt
  · exact (hlost hlt hi hj).elim
  · exact heq
  · exact (hlost hlt hj hi).elim

/-- A token has the lease of a key from the claim at one moment to the freeing at another, and no
claim for the key succeeds in between. -/
structure HasTenure (journal : List LeaseEvent) (key : String) (token : Token)
    (start stop : Nat) : Prop where
  lt : start < stop
  claimed : ∃ message ttl, journal[start]? = some (.carried message (.claim key token ttl) true)
  freed : ∃ message, journal[stop]? = some (.carried message (.free key token) true)
  held : ∀ l, start < l → l ≤ stop → (atMoment journal l).owner? key = some token
  alone : ∀ (l : Nat) message other ttl, start < l → l < stop →
    journal[l]? ≠ some (.carried message (.claim key other ttl) true)

/-- Whoever gives a lease back has had it until then, and nobody else has. -/
theorem exists_tenure (h : Truthful journal) {stop : Nat} {message : MessageId}
    (hfreed : journal[stop]? = some (.carried message (.free key token) true)) :
    ∃ start, HasTenure journal key token start stop := by
  have howner := carryOut_free_iff.1 (h _ _ _ _ hfreed)
  obtain ⟨start, message', ttl, hlt, hclaim, hheld⟩ := exists_claim h howner
  refine ⟨start, hlt, ⟨message', ttl, hclaim⟩, ⟨message, hfreed⟩, hheld, ?_⟩
  intro l message'' other ttl' hstart hstop hclaim'
  have hfree := carryOut_claim_iff.1 (h _ _ _ _ hclaim')
  cases hfree.symm.trans (hheld l hstart (Nat.le_of_lt hstop))

end LeaseRegister

end WordDuel
