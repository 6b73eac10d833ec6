import WordDuel.Lease.Claimant
/-!
# WordDuel.Proofs.Claimant

**What a claimant can do.** Each step of a claimant or its renewer is one of a few
(`Claimant.Step`), and none of them changes what lease it is after. A claimant that nobody disturbs,
whose messages arrive at once, comes to the same as one that talks to the server directly.
-/

namespace WordDuel

/-! ### The holder of a lease -/

namespace LeaseHolder

variable (lease : LeaseHolder)

theorem beginRelease_of_lapsed (h : lease.lapsed = true) :
    lease.beginRelease = (lease.beginRelease.1, .error (.lost lease.key)) := by
  simp [beginRelease, h]

theorem beginRelease_of_not_lapsed (h : lease.lapsed = false) :
    lease.beginRelease = (lease.beginRelease.1, .ok lease.freeing) := by
  simp [beginRelease, h]

theorem drop_of_released (h : lease.released = true) : lease.drop = (lease.drop.1, none) := by
  simp [drop, h]

theorem drop_of_not_released (h : lease.released = false) :
    lease.drop = (lease.drop.1, some lease.freeing) := by
  simp [drop, h]

theorem noteRenewal_key_token (answer : LeaseAnswer) :
    (lease.noteRenewal answer).key = lease.key ∧
      (lease.noteRenewal answer).token = lease.token := by
  match answer with
  | none | some true | some false => exact ⟨rfl, rfl⟩

end LeaseHolder

/-! ### One step of a claimant -/

namespace Claimant

/-- What a claimant or its renewer does in one step. -/
inductive Step (next : MessageId) (given? : MessageId → Option Bool) (c : Claimant) :
    Claimant → Option LeaseCommand → Prop
  | claim (hphase : c.phase = .claiming) :
    Step next given? c { c with phase := .asking next } (some c.claim)
  | give {command : LeaseCommand} (hphase : c.phase = .leaving command) :
    Step next given? c { c with phase := .returning next } (some command)
  | free {command : LeaseCommand} (hphase : c.phase = .dropped command) :
    Step next given? c { c with phase := .gone } (some command)
  | granted {message : MessageId} (hphase : c.phase = .asking message)
    (hgiven : given? message = some true) :
    Step next given? c { c with phase := .holding, renewer := .resting } none
  | refused {message : MessageId} (hphase : c.phase = .asking message)
    (hgiven : given? message = some false) :
    Step next given? c { c with phase := .refused } none
  | unheard {message : MessageId} (hphase : c.phase = .asking message) :
    Step next given? c { c with phase := .turnedAway (some .unavailable) } none
  | told {message : MessageId} {answer : LeaseAnswer} (hphase : c.phase = .returning message)
    (hgiven : answer = none ∨ given? message = answer) :
    Step next given? c { c with phase := .released (c.lease.endRelease answer) } none
  | retry (hphase : c.phase = .refused) : Step next given? c { c with phase := .claiming } none
  | giveUp (hphase : c.phase = .refused) :
    Step next given? c { c with phase := .turnedAway none } none
  | release (hphase : c.phase = .holding) (hlapsed : c.lease.lapsed = false) :
    Step next given? c
      { c with lease := c.lease.beginRelease.1, phase := .leaving c.lease.freeing } none
  | lost (hphase : c.phase = .holding) (hlapsed : c.lease.lapsed = true) :
    Step next given? c
      { c with
        lease := c.lease.beginRelease.1
        phase := .released (.error (.lost c.lease.key)) } none
  /-- Before the lease is had. -/
  | dropEarly (hphase : c.phase = .claiming ∨ (∃ message, c.phase = .asking message) ∨
      c.phase = .refused) :
    Step next given? c { c with phase := .gone } none
  | drop (hphase : c.phase = .holding ∨ (∃ command, c.phase = .leaving command) ∨
      ∃ message, c.phase = .returning message) (hreleased : c.lease.released = false) :
    Step next given? c
      { c with lease := c.lease.drop.1, phase := .dropped c.lease.freeing } none
  /-- After giving the lease back has begun. -/
  | dropLate (hphase : c.phase = .holding ∨ (∃ command, c.phase = .leaving command) ∨
      ∃ message, c.phase = .returning message) (hreleased : c.lease.released = true) :
    Step next given? c { c with lease := c.lease.drop.1, phase := .gone } none
  | renew (hrenewer : c.renewer = .resting) :
    Step next given? c { c with renewer := .asking next }
      (some (c.lease.renewal c.provider.ttl))
  | renewed {message : MessageId} {answer : LeaseAnswer} (hrenewer : c.renewer = .asking message)
    (hgiven : answer = none ∨ given? message = answer) :
    Step next given? c
      { c with
        lease := c.lease.noteRenewal answer
        renewer := if answer = some false then .stopped else .resting } none
  | halt (hrenewing : c.lease.renewing = false) :
    Step next given? c { c with renewer := .stopped } none

variable {c c' : Claimant} {next : MessageId} {given? : MessageId → Option Bool}
  {act : ClaimantAct} {command? : Option LeaseCommand}

theorem step_of_hear? {answer : LeaseAnswer} (h : c.hear? given? answer = some c') :
    c.Step next given? c' none := by
  rw [hear?] at h
  split at h
  · next message hphase =>
    split at h
    · cases h
      exact .unheard hphase
    · next effect =>
      split at h
      · cases h
      · next hgiven =>
        rw [Decidable.not_not] at hgiven
        cases effect <;> cases h
        · exact .refused hphase hgiven
        · exact .granted hphase hgiven
  · next message hphase =>
    split at h
    · next hgiven =>
      cases h
      exact .told hphase hgiven
    · cases h
  · cases h

theorem step_of_release? (h : c.release? = some c') : c.Step next given? c' none := by
  rw [release?] at h
  split at h
  · next hphase =>
    cases hlapsed : c.lease.lapsed with
    | false =>
        rw [c.lease.beginRelease_of_not_lapsed hlapsed] at h
        cases h
        exact .release hphase hlapsed
    | true =>
        rw [c.lease.beginRelease_of_lapsed hlapsed] at h
        cases h
        exact .lost hphase hlapsed
  · cases h

/-- From the time the lease is had it is up to the holder whether anything is left to be sent. -/
theorem drop?_of_had (hphase : c.phase = .holding ∨ (∃ command, c.phase = .leaving command) ∨
    ∃ message, c.phase = .returning message) :
    c.drop? = some (if c.lease.released then { c with lease := c.lease.drop.1, phase := .gone }
      else { c with lease := c.lease.drop.1, phase := .dropped c.lease.freeing }) := by
  cases hreleased : c.lease.released with
  | true =>
      have hdrop := c.lease.drop_of_released hreleased
      rcases hphase with hphase | ⟨command, hphase⟩ | ⟨message, hphase⟩ <;>
        rw [drop?, hphase, hdrop] <;> rfl
  | false =>
      have hdrop := c.lease.drop_of_not_released hreleased
      rcases hphase with hphase | ⟨command, hphase⟩ | ⟨message, hphase⟩ <;>
        rw [drop?, hphase, hdrop] <;> rfl

theorem step_of_drop? (h : c.drop? = some c') : c.Step next given? c' none := by
  have hhad (hphase : c.phase = .holding ∨ (∃ command, c.phase = .leaving command) ∨
      ∃ message, c.phase = .returning message) : c.Step next given? c' none := by
    rw [drop?_of_had hphase] at h
    cases hreleased : c.lease.released <;> rw [hreleased] at h <;> cases h
    · exact .drop hphase hreleased
    · exact .dropLate hphase hreleased
  cases hphase : c.phase with
  | claiming =>
      rw [drop?, hphase] at h
      cases h
      exact .dropEarly (.inl hphase)
  | asking message =>
      rw [drop?, hphase] at h
      cases h
      exact .dropEarly (.inr (.inl ⟨message, hphase⟩))
  | refused =>
      rw [drop?, hphase] at h
      cases h
      exact .dropEarly (.inr (.inr hphase))
  | holding => exact hhad (.inl hphase)
  | leaving command => exact hhad (.inr (.inl ⟨command, hphase⟩))
  | returning message => exact hhad (.inr (.inr ⟨message, hphase⟩))
  | _ =>
      rw [drop?, hphase] at h
      cases h

theorem step_of_act? (h : c.act? next given? act = some (c', command?)) :
    c.Step next given? c' command? := by
  cases act with
  | send =>
      obtain ⟨⟨d, command⟩, hsend, heq⟩ := Option.map_eq_some_iff.1 h
      cases heq
      rw [send?] at hsend
      split at hsend
      · next hphase => cases hsend; exact .claim hphase
      · next command hphase => cases hsend; exact .give hphase
      · next command hphase => cases hsend; exact .free hphase
      · cases hsend
  | hear answer =>
      obtain ⟨d, hhear, heq⟩ := Option.map_eq_some_iff.1 h
      cases heq
      exact step_of_hear? hhear
  | retry =>
      simp only [act?] at h
      split at h
      · next hphase => cases h; exact .retry hphase
      · cases h
  | giveUp =>
      simp only [act?] at h
      split at h
      · next hphase => cases h; exact .giveUp hphase
      · cases h
  | release =>
      obtain ⟨d, hrelease, heq⟩ := Option.map_eq_some_iff.1 h
      cases heq
      exact step_of_release? hrelease
  | drop =>
      obtain ⟨d, hdrop, heq⟩ := Option.map_eq_some_iff.1 h
      cases heq
      exact step_of_drop? hdrop
  | renew =>
      simp only [act?] at h
      split at h
      · next hrenewer => cases h; exact .renew hrenewer
      · cases h
  | hearRenewal answer =>
      obtain ⟨d, hhear, heq⟩ := Option.map_eq_some_iff.1 h
      cases heq
      rw [hearRenewal?] at hhear
      split at hhear
      · next message hrenewer =>
        split at hhear
        · next hgiven => cases hhear; exact .renewed hrenewer hgiven
        · cases hhear
      · cases hhear
  | halt =>
      simp only [act?] at h
      split at h
      · cases h
      · next hrenewing => cases h; exact .halt (by simpa using hrenewing)

/-- What a claimant is after does not change. -/
structure SameLease (c c' : Claimant) : Prop where
  key : c'.lease.key = c.lease.key
  token : c'.lease.token = c.lease.token
  provider : c'.provider = c.provider

theorem Step.sameLease (h : c.Step next given? c' command?) : c.SameLease c' := by
  cases h with
  | renewed =>
      obtain ⟨hkey, htoken⟩ := c.lease.noteRenewal_key_token _
      exact ⟨hkey, htoken, rfl⟩
  | _ => exact ⟨rfl, rfl, rfl⟩

/-! ### A claimant that nobody disturbs -/

/-- Send what is due and hear what comes of it, before anything else happens. -/
def exchange? (c : Claimant) (link : LeaseLink) (next : MessageId) :
    Option (LeaseLink × Claimant) :=
  (c.send? next).bind fun (c, command) =>
    (c.hear? (fun _ => (link.send command).2) (link.send command).2).map
      ((link.send command).1, ·)

theorem exchange?_of_send? {command : LeaseCommand} {link link' : LeaseLink} {answer : LeaseAnswer}
    (h : c.send? next = some (c', command)) (hsend : link.send command = (link', answer)) :
    c.exchange? link next = (c'.hear? (fun _ => answer) answer).map (link', ·) := by
  simp only [exchange?, h, Option.bind_some, hsend]

/-- A claim that is answered at once is what it is in one go. -/
theorem exchange?_new (provider : LeaseProvider) (key : String) (token : Token) (link : LeaseLink)
    (next : MessageId) :
    (new provider key token).exchange? link next =
      some ((provider.claim link key token).1,
        match (provider.claim link key token).2 with
        | .ok (some lease) =>
          { new provider key token with lease, phase := .holding, renewer := .resting }
        | .ok none => { new provider key token with phase := .refused }
        | .error cause => { new provider key token with phase := .turnedAway (some cause) }) := by
  rcases hsend : link.send (.claim (provider.leaseKey key) token provider.ttl) with ⟨link', answer⟩
  rw [exchange?_of_send? rfl hsend, LeaseProvider.claim, hsend]
  match answer with
  | none | some true | some false => rfl

/-- Giving a lease back, answered at once, is what it is in one go. -/
theorem exchange?_release? (hphase : c.phase = .holding) (link : LeaseLink) (next : MessageId) :
    ∃ d, c.release? = some d ∧
      if c.lease.lapsed then
        (link.release c.lease).1 = link ∧ d.phase = .released (link.release c.lease).2
      else
        d.exchange? link next = some ((link.release c.lease).1,
          { d with phase := .released (link.release c.lease).2 }) := by
  cases hlapsed : c.lease.lapsed with
  | true =>
      have hbegin := c.lease.beginRelease_of_lapsed hlapsed
      rw [release?, hphase, LeaseLink.release, hbegin]
      exact ⟨_, rfl, rfl, rfl⟩
  | false =>
      have hbegin := c.lease.beginRelease_of_not_lapsed hlapsed
      rcases hsend : link.send c.lease.freeing with ⟨link', answer⟩
      have hrelease : link.release c.lease = (link', c.lease.endRelease answer) := by
        rw [LeaseLink.release, hbegin]
        dsimp only
        rw [hsend]
        match answer with
        | none | some true | some false => rfl
      rw [release?, hphase, hbegin, hrelease]
      refine ⟨_, rfl, (exchange?_of_send? rfl hsend).trans ?_⟩
      match answer with
      | none | some true | some false => rfl

/-- What is freed in the background is freed as it is in one go. -/
theorem send?_drop? (hphase : c.phase = .holding) (hreleased : c.lease.released = false)
    (link : LeaseLink) (next : MessageId) :
    ∃ d e command, c.drop? = some d ∧ d.send? next = some (e, command) ∧
      (link.send command).1 = link.drop c.lease := by
  rw [drop?_of_had (.inl hphase), hreleased, LeaseLink.drop,
    c.lease.drop_of_not_released hreleased]
  exact ⟨_, _, _, rfl, rfl, rfl⟩

/-- A renewal that is answered at once is what it is in one go. -/
theorem hearRenewal?_renewal (hrenewer : c.renewer = .asking next) (hrenewing : c.lease.renewing)
    (link : LeaseLink) :
    ∃ d, c.hearRenewal? (fun _ => (link.send (c.lease.renewal c.provider.ttl)).2)
        (link.send (c.lease.renewal c.provider.ttl)).2 = some d ∧
      c.provider.renew link c.lease =
        ((link.send (c.lease.renewal c.provider.ttl)).1, d.lease) := by
  rw [hearRenewal?, hrenewer, LeaseProvider.renew, if_pos hrenewing]
  exact ⟨_, if_pos (.inr rfl), rfl⟩

end Claimant

end WordDuel
