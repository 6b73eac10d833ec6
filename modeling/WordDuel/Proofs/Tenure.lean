import WordDuel.Proofs.Contest
/-!
# WordDuel.Proofs.Tenure

**What a lease is worth.** A token gets a lease once at most (`Contest.Sound.claimedOnce`), so its
one tenure (`LeaseRegister.exists_tenure`) is what the claimant is told of when giving the lease
back succeeds. After the tenure nothing that was sent in its name has an effect any more
(`Contest.Sound.idle_of_lost`).
-/

namespace WordDuel

namespace Contest

variable {s : Contest} {c : Claimant} {token : Token}

/-! ### One tenure for each token -/

/-- No token gets a lease twice. -/
theorem Sound.claimedOnce (h : s.Sound) (token : Token) :
    LeaseRegister.ClaimedOnce s.journal token := by
  intro moment moment' message message' key key' ttl ttl' hclaim hclaim'
  obtain ⟨i, c, hc, -, htoken⟩ := h.sender (.claim key token ttl)
    (.inr ⟨message, true, List.mem_of_getElem? hclaim⟩)
  obtain rfl : token = c.lease.token := htoken
  have honce : s.journal.countP (LeaseEvent.gains c.lease.token) ≤ 1 :=
    Nat.le_trans (Nat.le_add_left _ _) (h.backed i c hc).once
  have hgains {message : MessageId} {key : String} {ttl : Nat} :
      LeaseEvent.gains c.lease.token (.carried message (.claim key c.lease.token ttl) true) := by
    simp [LeaseEvent.gains, LeaseCommand.claims]
  exact eq_of_countP_le_one honce hclaim hgains hclaim' hgains

/-- The claims, renewals and releases of a token are all about one key. -/
theorem Sound.key_eq (h : s.Sound) {command command' : LeaseCommand} (hsent : s.Sent command)
    (hsent' : s.Sent command') (htoken : command.token = command'.token) :
    command.key = command'.key := by
  obtain ⟨i, c, hc, hkey, hc1⟩ := h.sender command hsent
  obtain ⟨j, c', hc', hkey', hc1'⟩ := h.sender command' hsent'
  obtain rfl := h.distinct i j c c' hc hc' (by rw [← hc1, ← hc1', htoken])
  obtain rfl := Option.some.inj (hc.symm.trans hc')
  rw [hkey, hkey']

/-- Once a token has lost its lease, nothing is done in its name any more. -/
theorem Sound.idle_of_lost (h : s.Sound) {key : String} {had lost l : Nat} (hle : had ≤ lost)
    (hhad : (LeaseRegister.atMoment s.journal had).owner? key = some token)
    (hlost : (LeaseRegister.atMoment s.journal lost).owner? key ≠ some token) (hl : lost ≤ l)
    {message : MessageId} {command : LeaseCommand} {effect : Bool}
    (hcarried : s.journal[l]? = some (.carried message command effect))
    (htoken : command.token = token) : effect = false := by
  obtain ⟨start, message', ttl, hstart, hclaim, -⟩ :=
    LeaseRegister.exists_claim h.truthful hhad
  have hkey : command.key = key := h.key_eq
    (.inr ⟨message, effect, List.mem_of_getElem? hcarried⟩)
    (.inr ⟨message', true, List.mem_of_getElem? hclaim⟩) htoken
  have hnever := LeaseRegister.not_owner_of_lost h.truthful (h.claimedOnce token) hle hhad hlost hl
  have heffect := h.truthful _ _ _ _ hcarried
  rw [← Bool.not_eq_true]
  rintro rfl
  cases command with
  | claim key' token' ttl' =>
      obtain rfl : token' = token := htoken
      obtain rfl := h.claimedOnce token' _ _ _ _ _ _ _ _ hclaim hcarried
      omega
  | renew key' token' ttl' =>
      obtain rfl : token' = token := htoken
      obtain rfl : key' = key := hkey
      exact hnever (LeaseRegister.carryOut_renew_iff.1 heffect)
  | free key' token' =>
      obtain rfl : token' = token := htoken
      obtain rfl : key' = key := hkey
      exact hnever (LeaseRegister.carryOut_free_iff.1 heffect)

/-- The server is what its journal makes of it. -/
theorem register_eq {acts : List ContestAct} (hrun : empty.run? acts = some s) :
    s.register = .atMoment s.journal s.journal.length := by
  rw [LeaseRegister.atMoment_length]
  exact (sound_of_run? hrun).replayed

/-- A claimant that has been told that its lease was freed has had it from its only successful
claim until then, and nobody else has had it in between; and if somebody else has got the lease
before it was freed, the claimant is told that something went wrong. -/
theorem exclusive_tenure {acts : List ContestAct} (hrun : empty.run? acts = some s) {i : Nat}
    (hc : s.claimants[i]? = some c) :
    (c.phase = .released (.ok ()) →
      ∃ start stop, LeaseRegister.HasTenure s.journal c.lease.key c.lease.token start stop ∧
        (∀ (l : Nat) message key ttl,
          s.journal[l]? = some (.carried message (.claim key c.lease.token ttl) true) →
            l = start) ∧
        ∀ (l : Nat) message,
          s.journal[l]? = some (.carried message (.free c.lease.key c.lease.token) true) →
            l = stop) ∧
    ∀ (start taken : Nat) message ttl message' other ttl' result, start < taken →
      s.journal[start]? =
        some (.carried message (.claim c.lease.key c.lease.token ttl) true) →
      s.journal[taken]? = some (.carried message' (.claim c.lease.key other ttl') true) →
      (∀ (l : Nat) message, l < taken →
        s.journal[l]? ≠ some (.carried message (.free c.lease.key c.lease.token) true)) →
      c.phase = .released result → ∃ cause, result = .error cause := by
  have hsound := sound_of_run? hrun
  have honce := hsound.claimedOnce c.lease.token
  have htenure (hphase : c.phase = .released (.ok ())) :
      ∃ start stop, LeaseRegister.HasTenure s.journal c.lease.key c.lease.token start stop := by
    have howes := (hsound.backed i c hc).owes
    rw [hphase] at howes
    obtain ⟨message, hmem⟩ := howes
    obtain ⟨stop, hfreed⟩ := List.mem_iff_getElem?.1 hmem
    obtain ⟨start, htenure⟩ := LeaseRegister.exists_tenure hsound.truthful hfreed
    exact ⟨start, stop, htenure⟩
  constructor
  · intro hphase
    obtain ⟨start, stop, htenure⟩ := htenure hphase
    obtain ⟨message, ttl, hclaimed⟩ := htenure.claimed
    obtain ⟨message', hfreed⟩ := htenure.freed
    exact ⟨start, stop, htenure, fun l _ _ _ hl => honce _ _ _ _ _ _ _ _ hl hclaimed,
      fun l _ hl => LeaseRegister.freed_once hsound.truthful honce hl hfreed⟩
  · intro start taken message ttl message' other ttl' result hlt hclaim htaken hunfreed hphase
    cases result with
    | error cause => exact ⟨cause, rfl⟩
    | ok _ =>
        obtain ⟨start', stop, htenure⟩ := htenure hphase
        obtain ⟨_, _, hclaimed⟩ := htenure.claimed
        obtain ⟨message'', hfreed⟩ := htenure.freed
        obtain rfl := honce _ _ _ _ _ _ _ _ hclaim hclaimed
        -- The lease was freed before it was taken, or taken while it was held.
        rcases Nat.lt_trichotomy stop taken with hbefore | rfl | hafter
        · exact (hunfreed stop message'' hbefore hfreed).elim
        · cases htaken.symm.trans hfreed
        · exact (htenure.alone taken _ _ _ hlt hafter htaken).elim

end Contest

namespace Sample

/-- Leases that last half a minute. -/
def leases : LeaseProvider := { ttl := 30000 }

/-- The key of the lease that everybody wants. -/
def leaseKey : String := leases.leaseKey "room"

/-- The first of three claimants gives its lease back while one of its renewals is delayed. The
second one is refused, gets the lease after that, and loses it to the third. -/
def scramble : List ContestAct :=
  [.enter leases "room" 1, .claimant 0 .send, .serve 0, .claimant 0 (.hear (some true)),
    .pass 10000, .claimant 0 .renew, .serve 1, .claimant 0 (.hearRenewal (some true)),
    .claimant 0 .renew,
    .enter leases "room" 2, .claimant 1 .send, .serve 3, .claimant 1 (.hear (some false)),
    .claimant 1 .retry,
    .claimant 0 .release, .claimant 0 .send, .serve 4, .claimant 0 (.hear (some true)),
    .claimant 1 .send, .serve 5, .claimant 1 (.hear (some true)), .serve 2, .expire leaseKey,
    .enter leases "room" 3, .claimant 2 .send, .serve 6, .claimant 2 (.hear (some true)),
    .claimant 1 .release, .claimant 1 .send, .serve 7, .claimant 1 (.hear (some false))]

/-- What happens at the server meanwhile. -/
def scrambled : List LeaseEvent :=
  [.carried 0 (.claim leaseKey 1 30000) true, .passed 10000,
    .carried 1 (.renew leaseKey 1 30000) true, .carried 3 (.claim leaseKey 2 30000) false,
    .carried 4 (.free leaseKey 1) true, .carried 5 (.claim leaseKey 2 30000) true,
    .carried 2 (.renew leaseKey 1 30000) false, .expired leaseKey,
    .carried 6 (.claim leaseKey 3 30000) true, .carried 7 (.free leaseKey 2) false]

/-- What a claimant has been told of giving its lease back. -/
def told? (s : Contest) (i : Nat) : Option (String × Token × Bool) :=
  s.claimants[i]?.bind fun c =>
    match c.phase with
    | .released result => some (c.lease.key, c.lease.token, result.isOk)
    | _ => none

theorem of_told? {s : Contest} {i : Nat} {key : String} {token : Token} {ok : Bool}
    (h : told? s i = some (key, token, ok)) :
    ∃ c result, s.claimants[i]? = some c ∧ c.lease.key = key ∧ c.lease.token = token ∧
      c.phase = .released result ∧ result.isOk = ok := by
  obtain ⟨c, hc, hphase⟩ := Option.bind_eq_some_iff.1 h
  split at hphase
  · next result hreleased =>
    cases hphase
    exact ⟨c, result, hc, rfl, rfl, hreleased, rfl⟩
  · cases hphase

theorem exists_run_scramble : ∃ s, Contest.empty.run? scramble = some s ∧ s.journal = scrambled ∧
    told? s 0 = some (leaseKey, 1, true) ∧ told? s 1 = some (leaseKey, 2, false) := by
  have hrun : (Contest.empty.run? scramble).isSome := by decide +kernel
  have hjournal : (Contest.empty.run? scramble).map Contest.journal = some scrambled := by
    decide +kernel
  have htold : (Contest.empty.run? scramble).map (fun s => (told? s 0, told? s 1)) =
      some (some (leaseKey, 1, true), some (leaseKey, 2, false)) := by decide +kernel
  obtain ⟨s, hs⟩ := Option.isSome_iff_exists.1 hrun
  rw [hs] at hjournal htold
  obtain ⟨hfirst, hsecond⟩ := Prod.mk.inj (Option.some.inj htold)
  exact ⟨s, hs, Option.some.inj hjournal, hfirst, hsecond⟩

end Sample

namespace Contest

/-- The first claimant has its lease to itself until it gives it back; the second one is told that
its lease was lost. -/
theorem exclusive_tenure_of_scramble :
    ∃ s c c' cause, empty.run? Sample.scramble = some s ∧ s.journal = Sample.scrambled ∧
      s.claimants[0]? = some c ∧ c.phase = .released (.ok ()) ∧
      LeaseRegister.HasTenure s.journal c.lease.key c.lease.token 0 4 ∧
      s.claimants[1]? = some c' ∧ c'.phase = .released (.error cause) := by
  obtain ⟨s, hrun, hjournal, hfirst, hsecond⟩ := Sample.exists_run_scramble
  obtain ⟨c, result, hc, hkey, htoken, hphase, hok⟩ := Sample.of_told? hfirst
  obtain ⟨c', result', hc', hkey', htoken', hphase', -⟩ := Sample.of_told? hsecond
  have hfreed : c.phase = .released (.ok ()) := by
    cases result with
    | ok _ => exact hphase
    | error cause => cases hok
  obtain ⟨start, stop, htenure, hstart, hstop⟩ := (exclusive_tenure hrun hc).1 hfreed
  rw [hjournal, hkey, htoken] at htenure
  rw [hjournal, htoken] at hstart
  rw [hjournal, hkey, htoken] at hstop
  obtain rfl : 0 = start := hstart 0 0 Sample.leaseKey 30000 rfl
  obtain rfl : 4 = stop := hstop 4 4 rfl
  -- The second lease is lost: it is taken at 8 without having been freed.
  have hunfreed (l : Nat) (message : MessageId) (_ : l < 8) :
      s.journal[l]? ≠ some (.carried message (.free c'.lease.key c'.lease.token) true) := by
    intro hl
    rw [hjournal, hkey', htoken'] at hl
    have hnone := List.mem_of_getElem? hl
    simp [Sample.scrambled] at hnone
  obtain ⟨cause, rfl⟩ := (exclusive_tenure hrun hc').2 5 8 5 30000 6 3 30000 result' (by decide)
    (by rw [hjournal, hkey', htoken']; rfl) (by rw [hjournal, hkey']; rfl) hunfreed hphase'
  exact ⟨s, c, c', cause, hrun, hjournal, hc, hfreed, by rwa [hjournal, hkey, htoken], hc', hphase'⟩

/-- Commands that are carried out for a token do nothing to a lease that another token has, and
nothing at all once the token has lost its own. -/
theorem stale_harmless {acts : List ContestAct} (hrun : empty.run? acts = some s) :
    (∀ (l : Nat) message command effect key holder,
      s.journal[l]? = some (.carried message command effect) →
      (LeaseRegister.atMoment s.journal l).owner? key = some holder → command.token ≠ holder →
      (LeaseRegister.atMoment s.journal (l + 1)).entry key =
        (LeaseRegister.atMoment s.journal l).entry key) ∧
    ∀ (key : String) (token : Token) (had lost l : Nat) message command effect, had ≤ lost →
      (LeaseRegister.atMoment s.journal had).owner? key = some token →
      (LeaseRegister.atMoment s.journal lost).owner? key ≠ some token → lost ≤ l →
      s.journal[l]? = some (.carried message command effect) → command.token = token →
      effect = false ∧
        LeaseRegister.atMoment s.journal (l + 1) = LeaseRegister.atMoment s.journal l := by
  have hsound := sound_of_run? hrun
  constructor
  · intro l message command effect key holder hcarried howner hne
    rw [LeaseRegister.atMoment_succ hcarried]
    exact LeaseRegister.entry_carryOut howner hne
  · intro key token had lost l message command effect hle hhad hlost hl hcarried htoken
    have hidle := hsound.idle_of_lost hle hhad hlost hl hcarried htoken
    refine ⟨hidle, ?_⟩
    rw [LeaseRegister.atMoment_succ hcarried]
    exact LeaseRegister.carryOut_of_idle ((hsound.truthful _ _ _ _ hcarried).trans hidle)

/-- A renewal that comes after the lease was freed leaves it to the next, and so does a release
that comes after the lease was lost. -/
theorem stale_harmless_of_scramble :
    ∃ s, empty.run? Sample.scramble = some s ∧ s.journal = Sample.scrambled ∧
      (LeaseRegister.atMoment s.journal 7).entry Sample.leaseKey =
        (LeaseRegister.atMoment s.journal 6).entry Sample.leaseKey ∧
      LeaseRegister.atMoment s.journal 10 = LeaseRegister.atMoment s.journal 9 ∧
      (LeaseRegister.atMoment s.journal 10).owner? Sample.leaseKey = some 3 := by
  obtain ⟨s, hrun, hjournal, -, -⟩ := Sample.exists_run_scramble
  obtain ⟨hothers, hlost⟩ := stale_harmless hrun
  rw [hjournal] at hothers hlost
  refine ⟨s, hrun, hjournal, ?_⟩
  rw [hjournal]
  refine ⟨?_, ?_, ?_⟩
  · exact hothers 6 2 (.renew Sample.leaseKey 1 30000) false Sample.leaseKey 2 rfl
      (by decide +kernel) (by decide)
  · exact (hlost Sample.leaseKey 2 6 8 9 7 (.free Sample.leaseKey 2) false (by decide)
      (by decide +kernel) (by decide +kernel) (by decide) rfl rfl).2
  · decide +kernel

end Contest

end WordDuel
