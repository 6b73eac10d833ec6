import WordDuel.Lease.Upkeep
/-!
# WordDuel.Proofs.Upkeep

**Whether a lease outlasts a failed renewal.** After each attempt to renew it the lease lasts
until the next attempt at least, and until the one after that if this one has not failed. Two
intervals between renewals are shorter than a lease exactly if the lease lasts more than twenty
milliseconds (`two_intervals_lt_iff`); settings that ask for shorter leases are accepted all the
same, and under these a lease can be lost by a single failure (`survives_iff`).
-/

namespace WordDuel

/-! ### The arithmetic of intervals -/

namespace Pace

/-- The shortest interval between renewals matters for short leases only. -/
theorem two_intervals_lt_iff (ttl : Nat) :
    2 * renewInterval ttl < millisecond * ttl ↔ 20 < ttl := by
  simp only [renewInterval, minRenewInterval, millisecond]
  omega

end Pace

/-- A command of somebody else neither ends a lease nor has any other effect on it. -/
theorem LeaseServer.run_of_other {s : LeaseServer} {key : String} {token : Token}
    {command : LeaseCommand} (howner : s.owner? key = some token) (hother : command.token ≠ token) :
    (s.run command).1.owner? key = some token ∧
      ((s.run command).2 = true → command.key ≠ key) := by
  cases command with
  | claim key' token' ttl =>
      by_cases hkey : key' = key
      · simp [run, LeaseCommand.key, hkey, howner]
      · by_cases hfree : s.owner? key' = none
        · simp [run, LeaseCommand.key, hfree, owner?_file, hkey, Ne.symm hkey, howner]
        · simp [run, hfree, howner]
  | renew key' token' ttl =>
      by_cases hfiled : s.owner? key' = some token'
      · have hkey : key' ≠ key := by
          rintro rfl
          exact hother (Option.some.inj (hfiled.symm.trans howner))
        simp [run, LeaseCommand.key, hfiled, owner?_file, hkey, Ne.symm hkey, howner]
      · simp [run, hfiled, howner]
  | free key' token' =>
      by_cases hfiled : s.owner? key' = some token'
      · have hkey : key' ≠ key := by
          rintro rfl
          exact hother (Option.some.inj (hfiled.symm.trans howner))
        simp [run, LeaseCommand.key, hfiled, owner?_expire, hkey, Ne.symm hkey, howner]
      · simp [run, hfiled, howner]

namespace Upkeep

variable {p : LeaseProvider} {token : Token} {u u' : Upkeep}

/-! ### A lease that is kept up -/

/-- The lease is filed for its holder, who does not believe it lost, and its time has not come. -/
structure Held (token : Token) (u : Upkeep) : Prop where
  owner : u.server.owner? u.holder.key = some token
  lapsed : u.holder.lapsed = false
  ahead : ∃ deadline, u.deadline = some deadline ∧ u.now < deadline

/-- The lease is filed for its holder, who goes on to renew it in time. It lasts beyond the next
attempt, and beyond the one after that unless the last attempt has failed. -/
structure KeptUp (p : LeaseProvider) (token : Token) (last : RenewalFate) (u : Upkeep) :
    Prop where
  owner : u.server.owner? u.holder.key = some token
  token : u.holder.token = token
  renewing : u.holder.renewing = true
  lapsed : u.holder.lapsed = false
  pace : 2 * u.interval < Pace.millisecond * p.ttl
  punctual : u.now ≤ u.due
  covered : ∃ deadline, u.deadline = some deadline ∧
    u.due + (if last.fails then 0 else u.interval) < deadline

theorem KeptUp.held {last : RenewalFate} (h : KeptUp p token last u) : Held token u := by
  obtain ⟨deadline, hdeadline, hcovered⟩ := h.covered
  have hpunctual := h.punctual
  exact ⟨h.owner, h.lapsed, deadline, hdeadline, by omega⟩

/-- A lease is had if nobody else has it, and lasts from then on. -/
theorem begin?_eq_some {server : LeaseServer} {now : Nat} {key : String}
    (h : begin? p server now key token = some u) :
    u =
      { server := server.file (p.leaseKey key) ⟨token, p.ttl⟩
        now
        deadline := some (now + Pace.millisecond * p.ttl)
        holder := .new (p.leaseKey key) token
        interval := Pace.renewInterval p.ttl
        due := now + Pace.renewInterval p.ttl } := by
  rw [begin?, LeaseServer.run] at h
  split at h
  · next server' hclaim =>
    split at hclaim
    · obtain ⟨rfl, -⟩ := Prod.mk.inj hclaim
      exact (Option.some.inj h).symm
    · cases (Prod.mk.inj hclaim).2
  · cases h

theorem keptUp_of_begin? {server : LeaseServer} {now : Nat} {key : String}
    (hpace : 2 * Pace.renewInterval p.ttl < Pace.millisecond * p.ttl)
    (h : begin? p server now key token = some u) : KeptUp p token .answered u := by
  rw [begin?_eq_some h]
  exact
    { owner := by simp [LeaseServer.owner?_file, LeaseHolder.new]
      token := rfl
      renewing := rfl
      lapsed := rfl
      pace := hpace
      punctual := Nat.le_add_right _ _
      covered := ⟨_, rfl, by simp only [RenewalFate.fails, Bool.false_eq_true, if_false]; omega⟩ }

/-! ### What each act does to it -/

section Acts

variable {last : RenewalFate}

/-- A renewal that is carried out has an effect. -/
theorem KeptUp.carryOut_renewal (h : KeptUp p token last u) :
    u.carryOut (u.holder.renewal p.ttl) =
      ({ u with
          server := u.server.file u.holder.key ⟨token, p.ttl⟩
          deadline := some (u.now + Pace.millisecond * p.ttl) }, true) := by
  have htoken := h.token
  have howner := h.owner
  simp [carryOut, LeaseHolder.renewal, LeaseServer.run, LeaseCommand.key, LeaseCommand.deadline?,
    htoken, howner]

/-- Time that passes until the next attempt does not run the lease out. -/
theorem KeptUp.pass (h : KeptUp p token last u) {ns : Nat} (hdue : u.now + ns ≤ u.due) :
    KeptUp p token last (u.pass ns) := by
  obtain ⟨deadline, hdeadline, hcovered⟩ := h.covered
  have hahead : ¬ deadline ≤ u.now + ns := by omega
  have hpass : u.pass ns = { u with now := u.now + ns } := by
    simp [Upkeep.pass, hdeadline, hahead]
  rw [hpass]
  exact { h with punctual := hdue, covered := ⟨deadline, hdeadline, hcovered⟩ }

/-- Nobody else's command does anything to the lease. -/
theorem KeptUp.other (h : KeptUp p token last u) {command : LeaseCommand}
    (hother : command.token ≠ u.holder.token) : KeptUp p token last (u.carryOut command).1 := by
  rw [h.token] at hother
  obtain ⟨howner, hkey⟩ := LeaseServer.run_of_other h.owner hother
  have hcarried : (u.carryOut command).1 = { u with server := (u.server.run command).1 } := by
    simp only [carryOut]
    rw [if_neg fun hboth => hkey hboth.1 hboth.2]
  rw [hcarried]
  exact { h with owner := howner }

/-- An attempt to renew the lease keeps it up, if it does not fail after another that failed. -/
theorem KeptUp.renew (h : KeptUp p token last u) (hdue : u.now = u.due) {fate : RenewalFate}
    (hfate : ¬ (last.fails ∧ fate.fails)) : KeptUp p token fate (u.renew p fate) := by
  have hpace := h.pace
  have hnext : u.now + u.interval < u.now + Pace.millisecond * p.ttl := by omega
  have hafter : u.now + u.interval + u.interval < u.now + Pace.millisecond * p.ttl := by omega
  cases fate with
  | answered =>
      simp only [Upkeep.renew, h.carryOut_renewal]
      exact
        { owner := by simp [note, LeaseHolder.noteRenewal, LeaseServer.owner?_file]
          token := h.token
          renewing := h.renewing
          lapsed := h.lapsed
          pace := hpace
          punctual := Nat.le_add_right _ _
          covered := ⟨_, rfl, hafter⟩ }
  | unanswered =>
      simp only [Upkeep.renew, h.carryOut_renewal]
      exact
        { owner := by simp [note, LeaseHolder.noteRenewal, LeaseServer.owner?_file]
          token := h.token
          renewing := h.renewing
          lapsed := h.lapsed
          pace := hpace
          punctual := Nat.le_add_right _ _
          covered := ⟨_, rfl, hnext⟩ }
  | undelivered =>
      have hlast : last.fails = false := by simpa [RenewalFate.fails] using hfate
      obtain ⟨deadline, hdeadline, hcovered⟩ := h.covered
      simp only [hlast, Bool.false_eq_true, if_false, ← hdue] at hcovered
      exact
        { owner := h.owner
          token := h.token
          renewing := h.renewing
          lapsed := h.lapsed
          pace := hpace
          punctual := Nat.le_add_right _ _
          covered := ⟨deadline, hdeadline, hcovered⟩ }

/-- Whatever can happen next keeps the lease up. -/
theorem KeptUp.act? (h : KeptUp p token last u) {act : UpkeepAct}
    (hfate : ∀ fate, act.fate? = some fate → ¬ (last.fails ∧ fate.fails))
    (hact : u.act? p act = some u') : KeptUp p token (act.fate?.getD last) u' := by
  cases act with
  | pass ns =>
      simp only [Upkeep.act?, h.renewing, true_and] at hact
      split at hact
      · cases hact
      · next hdue =>
        obtain rfl := Option.some.inj hact
        exact h.pass (Nat.le_of_not_lt hdue)
  | renewal fate =>
      simp only [Upkeep.act?, h.renewing, true_and] at hact
      split at hact
      · next hdue =>
        obtain rfl := Option.some.inj hact
        exact h.renew hdue (hfate fate rfl)
      · cases hact
  | other command =>
      simp only [Upkeep.act?] at hact
      split at hact
      · cases hact
      · next hother =>
        obtain rfl := Option.some.inj hact
        exact h.other hother

end Acts

/-! ### Whole runs -/

/-- What becomes of the attempts in a run, in order. -/
def fates (acts : List UpkeepAct) : List RenewalFate := acts.filterMap UpkeepAct.fate?

/-- A lease that is kept up stays so in every run in which no two attempts fail in a row. -/
theorem KeptUp.run? {last : RenewalFate} (h : KeptUp p token last u) {acts : List UpkeepAct}
    (hfates : NoTwoFail (last :: fates acts)) (hrun : u.run? p acts = some u') :
    ∃ last', KeptUp p token last' u' := by
  induction acts generalizing u last with
  | nil =>
      obtain rfl := Option.some.inj hrun
      exact ⟨last, h⟩
  | cons act acts ih =>
      rw [Upkeep.run?, List.foldlM_cons] at hrun
      obtain ⟨u₁, hact, hrest⟩ := Option.bind_eq_some_iff.1 hrun
      rw [fates, List.filterMap_cons] at hfates
      cases hfate : act.fate? with
      | none =>
          rw [hfate] at hfates
          have hnext := h.act? (by simp [hfate]) hact
          rw [hfate] at hnext
          exact ih hnext hfates hrest
      | some fate =>
          rw [hfate] at hfates
          obtain ⟨hpair, hfates⟩ := hfates
          have hnext := h.act? (by simpa [hfate] using hpair) hact
          rw [hfate] at hnext
          exact ih hnext hfates hrest

/-! ### A single failure -/

/-- One interval passes, the attempt to renew the lease does not arrive, and another passes. -/
def oneFailure (interval : Nat) : List UpkeepAct :=
  [.pass interval, .renewal .undelivered, .pass interval]

/-- A lease that does not last longer than two intervals is lost by a single failure. -/
theorem exists_run_lost {deadline : Nat} (hrenewing : u.holder.renewing = true)
    (hdue : u.due = u.now + u.interval) (hdeadline : u.deadline = some deadline)
    (hshort : deadline ≤ u.now + u.interval + u.interval) :
    ∃ u', u.run? p (oneFailure u.interval) = some u' ∧
      u'.server.owner? u'.holder.key = none := by
  have hrun : u.run? p (oneFailure u.interval) = some
      { u with
          server := u.server.expire u.holder.key
          now := u.now + u.interval + u.interval
          deadline := none
          due := u.now + u.interval + u.interval } := by
    -- A lease that is shorter than one interval runs out even before the attempt fails.
    by_cases hfirst : deadline ≤ u.now + u.interval
    · simp [Upkeep.run?, oneFailure, act?, pass, renew, note, LeaseHolder.noteRenewal, hrenewing,
        hdue, hdeadline, hfirst]
    · simp [Upkeep.run?, oneFailure, act?, pass, renew, note, LeaseHolder.noteRenewal, hrenewing,
        hdue, hdeadline, hfirst, hshort]
  exact ⟨_, hrun, by simp [LeaseServer.owner?_expire]⟩

end Upkeep

/-! ### Leases under accepted settings -/

/-- Whoever gets a lease has it for as long as no two attempts in a row to renew it fail. -/
def LeaseProvider.Survives (p : LeaseProvider) : Prop :=
  ∀ (server : LeaseServer) (now : Nat) (key : String) (token : Token) (u : Upkeep)
    (acts : List UpkeepAct) (u' : Upkeep), Upkeep.begin? p server now key token = some u →
      u.run? p acts = some u' → NoTwoFail (Upkeep.fates acts) → u'.Held token

/-- Leases outlast a failed renewal exactly if two intervals are shorter than a lease. -/
theorem LeaseProvider.survives_iff_of_pace (p : LeaseProvider) :
    p.Survives ↔ 2 * Pace.renewInterval p.ttl < Pace.millisecond * p.ttl := by
  constructor
  · intro hsurvives
    refine Decidable.byContradiction fun hslow => ?_
    obtain ⟨u, hbegin⟩ : ∃ u, Upkeep.begin? p .empty 0 "" 0 = some u := ⟨_, rfl⟩
    have hbegun := Upkeep.begin?_eq_some hbegin
    have hinterval : u.interval = Pace.renewInterval p.ttl := by rw [hbegun]
    have hrenewing : u.holder.renewing = true := by rw [hbegun]; rfl
    have hdue : u.due = u.now + u.interval := by rw [hbegun]
    have hdeadline : u.deadline = some (u.now + Pace.millisecond * p.ttl) := by rw [hbegun]
    obtain ⟨u', hrun, hlost⟩ :=
      Upkeep.exists_run_lost (p := p) hrenewing hdue hdeadline (by omega)
    have hheld := hsurvives _ _ _ _ _ _ _ hbegin hrun trivial
    rw [Upkeep.Held.owner hheld] at hlost
    cases hlost
  · intro hpace server now key token u acts u' hbegin hrun hfates
    have hstart : NoTwoFail (.answered :: Upkeep.fates acts) := by
      cases hacts : Upkeep.fates acts with
      | nil => trivial
      | cons fate fates => exact ⟨by simp [RenewalFate.fails], hacts ▸ hfates⟩
    obtain ⟨last, hkept⟩ := (Upkeep.keptUp_of_begin? hpace hbegin).run? hstart hrun
    exact hkept.held

namespace Settings

variable {settings : Settings}

/-- What settings that pass the check say about shared locks. -/
theorem shared_of_check {s : Settings} (h : check s = .ok settings) :
    (settings.lockBackend = .shared → settings.redisUrl ≠ none) ∧
      settings.lockTimeoutMs < settings.lockTtlMs := by
  rw [check] at h
  split at h
  · cases h
  · split at h
    · cases h
    · split at h
      · cases h
      · next hurl =>
        split at h
        · cases h
        · next httl =>
          obtain rfl := Except.ok.inj h
          exact ⟨fun hshared hnone => hurl ⟨hshared, hnone⟩, Nat.lt_of_not_le httl⟩

theorem shared_of_ofVariables {lookup : String → Option String}
    (h : ofVariables lookup = .ok settings) :
    (settings.lockBackend = .shared → settings.redisUrl ≠ none) ∧
      settings.lockTimeoutMs < settings.lockTtlMs := by
  simp only [ofVariables, bind, Except.bind] at h
  -- One case for each variable that can be read, and the last one for the check.
  repeat' split at h
  all_goals first | cases h | exact shared_of_check h

end Settings

/-- Under accepted settings with shared locks, whoever gets a lease has it for as long as no two
attempts in a row to renew it fail, exactly if a lease lasts more than twenty milliseconds, that
is, longer than two intervals between renewals. -/
theorem survives_iff {lookup : String → Option String} {settings : Settings}
    (haccepted : Settings.ofVariables lookup = .ok settings)
    (hshared : settings.lockBackend = .shared) :
    settings.redisUrl ≠ none ∧ settings.lockTimeoutMs < settings.lockTtlMs ∧
      ((LeaseProvider.ofSettings settings).Survives ↔ 20 < settings.lockTtlMs) ∧
      (20 < settings.lockTtlMs ↔
        2 * Pace.renewInterval settings.lockTtlMs < Pace.millisecond * settings.lockTtlMs) := by
  obtain ⟨hurl, htimeout⟩ := Settings.shared_of_ofVariables haccepted
  have hpace := Pace.two_intervals_lt_iff settings.lockTtlMs
  have hsurvives := (LeaseProvider.ofSettings settings).survives_iff_of_pace
  exact ⟨hurl hshared, htimeout, hsurvives.trans hpace, hpace.symm⟩

namespace Sample

/-- Variables that ask for shared locks, and for leases of so many milliseconds. -/
def leaseVariables (ttl : String) : String → Option String
  | "LOCK_BACKEND" => some "redis"
  | "REDIS_URL" => some "redis://127.0.0.1/"
  | "LOCK_TIMEOUT_MS" => some "10"
  | "LOCK_TTL_MS" => some ttl
  | _ => none

/-- Whether settings with shared locks come of them can be computed. -/
theorem exists_settings {text : String} {ttl : Nat}
    (h : (Settings.ofVariables (leaseVariables text)).toOption.map
      (fun settings => (settings.lockBackend, settings.lockTtlMs)) = some (.shared, ttl)) :
    ∃ settings, Settings.ofVariables (leaseVariables text) = .ok settings ∧
      settings.lockBackend = .shared ∧ settings.lockTtlMs = ttl := by
  obtain ⟨settings, hsettings, hshared⟩ := Option.map_eq_some_iff.1 h
  obtain ⟨hbackend, httl⟩ := Prod.mk.inj hshared
  refine ⟨settings, ?_, hbackend, httl⟩
  cases hread : Settings.ofVariables (leaseVariables text) with
  | error fault =>
      rw [hread] at hsettings
      cases hsettings
  | ok settings' =>
      rw [hread] at hsettings
      rw [Option.some.inj hsettings]

end Sample

/-- A lease of twenty-one milliseconds outlasts a failed renewal. -/
theorem survives_of_21_ms :
    ∃ settings, Settings.ofVariables (Sample.leaseVariables "21") = .ok settings ∧
      settings.lockBackend = .shared ∧ (LeaseProvider.ofSettings settings).Survives := by
  have hread : (Settings.ofVariables (Sample.leaseVariables "21")).toOption.map
      (fun settings => (settings.lockBackend, settings.lockTtlMs)) = some (.shared, 21) := by
    decide +kernel
  obtain ⟨settings, hsettings, hshared, httl⟩ := Sample.exists_settings hread
  obtain ⟨-, -, hsurvives, -⟩ := survives_iff hsettings hshared
  exact ⟨settings, hsettings, hshared, hsurvives.2 (by omega)⟩

/-- A lease of fifteen milliseconds, as settings may ask for, is lost to anybody who wants it
although only one attempt to renew it has failed. -/
theorem lost_by_one_failure :
    ∃ settings, Settings.ofVariables (Sample.leaseVariables "15") = .ok settings ∧
      settings.lockBackend = .shared ∧
      ∃ u u', Upkeep.begin? (.ofSettings settings) .empty 0 "room" 1 = some u ∧
        u.run? (.ofSettings settings) [.pass 10000000, .renewal .undelivered, .pass 5000000] =
          some u' ∧
        NoTwoFail [.undelivered] ∧ u'.holder.renewing = true ∧
        u'.server.owner? u'.holder.key = none ∧
        (Upkeep.begin? (.ofSettings settings) u'.server u'.now "room" 2).isSome ∧
        ¬ 2 * Pace.renewInterval settings.lockTtlMs <
          Pace.millisecond * settings.lockTtlMs := by
  have hread : (Settings.ofVariables (Sample.leaseVariables "15")).toOption.map
      (fun settings => (settings.lockBackend, settings.lockTtlMs)) = some (.shared, 15) := by
    decide +kernel
  obtain ⟨settings, hsettings, hshared, httl⟩ := Sample.exists_settings hread
  have hprovider : LeaseProvider.ofSettings settings = { ttl := 15 } := by
    simp [LeaseProvider.ofSettings, httl]
  refine ⟨settings, hsettings, hshared, ?_⟩
  rw [hprovider, httl]
  exact ⟨_, _, rfl, rfl, trivial, rfl, by decide +kernel, by decide +kernel, by decide⟩

end WordDuel
