import WordDuel.Lease.Contest
import WordDuel.Proofs.Claimant
import WordDuel.Proofs.Register
/-!
# WordDuel.Proofs.Contest

**How often a token gets a lease.** A claimant sends a claim only while no claim of its token has
come to anything: it has none under way, and none that succeeded (`Contest.Backs`). So each token
gets a lease at most once, whatever is delayed, lost or left unheard. What others do is no harm to
that (`Contest.Advances`), since nobody else has the token.
-/

namespace WordDuel

/-! ### The claims of a token -/

/-- What occurs at most once in a list occurs in one place. -/
theorem eq_of_countP_le_one {α : Type} {p : α → Bool} {l : List α} (h : l.countP p ≤ 1) {i j : Nat}
    {a b : α} (hi : l[i]? = some a) (ha : p a) (hj : l[j]? = some b) (hb : p b) : i = j := by
  induction l generalizing i j with
  | nil => cases hi
  | cons x l ih =>
      rw [List.countP_cons] at h
      have hhere {k : Nat} {c : α} (hx : p x) (hk : l[k]? = some c) (hc : p c) : False := by
        have hpos := List.countP_pos_iff.2 ⟨c, List.mem_of_getElem? hk, hc⟩
        rw [if_pos hx] at h
        omega
      cases i with
      | zero =>
          cases j with
          | zero => rfl
          | succ j =>
              cases hi
              exact (hhere ha hj hb).elim
      | succ i =>
          cases j with
          | zero =>
              cases hj
              exact (hhere hb hi ha).elim
          | succ j =>
              have hle : l.countP p ≤ 1 := Nat.le_trans (Nat.le_add_right _ _) h
              rw [ih hle hi hj]

/-- Whether a command claims a lease for a token. -/
def LeaseCommand.claims (token : Token) : LeaseCommand → Bool
  | .claim _ token' _ => token' = token
  | _ => false

namespace LeaseEvent

/-- Whether a claim for a token succeeds. -/
def gains (token : Token) : LeaseEvent → Bool
  | .carried _ command effect => command.claims token && effect
  | _ => false

/-- Whether an event has nothing to do with messages. -/
def IsQuiet (event : LeaseEvent) : Prop :=
  ∀ message command effect, event ≠ .carried message command effect

variable {event : LeaseEvent}

theorem IsQuiet.gains (h : event.IsQuiet) (token : Token) : event.gains token = false := by
  cases event with
  | carried message command effect => exact absurd rfl (h message command effect)
  | expired key => rfl
  | passed ms => rfl

theorem IsQuiet.answer? (h : event.IsQuiet) (message : MessageId) : event.answer? message = none := by
  cases event with
  | carried message command effect => exact absurd rfl (h message command effect)
  | expired key => rfl
  | passed ms => rfl

end LeaseEvent

namespace Contest

variable (s : Contest) {c c' : Claimant} {token : Token}

/-- How often a token may have got a lease in the end: its claims that are under way, and those
that succeeded. -/
def chances (token : Token) : Nat :=
  s.underway.countP (fun p => p.2.claims token) + s.journal.countP (LeaseEvent.gains token)

/-- A message that was sent brings a certain command, and no other. -/
structure Bears (message : MessageId) (command : LeaseCommand) : Prop where
  sent : message < s.sent
  underway : ∀ p ∈ s.underway, p.1 = message → p.2 = command
  journal : ∀ command' effect, .carried message command' effect ∈ s.journal → command' = command

/-- What has to be the case for a claimant to have come so far. -/
def Owes (c : Claimant) : ClaimantPhase → Prop
  | .claiming | .refused => s.chances c.lease.token = 0
  | .asking message => s.Bears message c.claim ∧
      (s.answer? message = some false → s.chances c.lease.token = 0)
  | .leaving command | .dropped command => command = c.lease.freeing
  | .returning message => s.Bears message c.lease.freeing
  | .released (.ok ()) => ∃ message, .carried message c.lease.freeing true ∈ s.journal
  | _ => True

/-- What has to be the case for a claimant to be what it is: its token has got a lease at most
once, and not at all if it is about to claim one. -/
structure Backs (c : Claimant) : Prop where
  once : s.chances c.lease.token ≤ 1
  owes : s.Owes c c.phase

/-- Somebody has sent a command, which is under way or has arrived. -/
def Sent (command : LeaseCommand) : Prop :=
  (∃ message, (message, command) ∈ s.underway) ∨
    ∃ message effect, .carried message command effect ∈ s.journal

/-- The journal tells what has happened to the server, and messages are counted. -/
structure Kept : Prop where
  replayed : s.register = .replay s.journal
  truthful : LeaseRegister.Truthful s.journal
  underway : ∀ p ∈ s.underway, p.1 < s.sent
  arrived : ∀ message command effect, .carried message command effect ∈ s.journal →
    message < s.sent

/-- Besides, every claimant is what it is with good reason. -/
structure Sound : Prop extends Kept s where
  backed : ∀ (i : Nat) c, s.claimants[i]? = some c → s.Backs c
  distinct : ∀ (i j : Nat) c c', s.claimants[i]? = some c → s.claimants[j]? = some c' →
    c.lease.token = c'.lease.token → i = j
  /-- Commands come from claimants. -/
  sender : ∀ command, s.Sent command → ∃ (i : Nat) (c : Claimant), s.claimants[i]? = some c ∧
    command.key = c.lease.key ∧ command.token = c.lease.token

variable {s} {s' : Contest}

/-! ### Messages and events -/

theorem mem_underway_send {command : LeaseCommand} {p : MessageId × LeaseCommand} :
    p ∈ (s.send (some command)).underway ↔ p ∈ s.underway ∨ p = (s.sent, command) := by
  show p ∈ s.underway ++ [(s.sent, command)] ↔ _
  rw [List.mem_append, List.mem_singleton]

theorem mem_journal_note {event event' : LeaseEvent} :
    event' ∈ (s.note event).journal ↔ event' ∈ s.journal ∨ event' = event := by
  show event' ∈ s.journal ++ [event] ↔ _
  rw [List.mem_append, List.mem_singleton]

theorem exists_carried_of_answer? {message : MessageId} {effect : Bool}
    (h : s.answer? message = some effect) :
    ∃ command, .carried message command effect ∈ s.journal := by
  obtain ⟨event, hevent, hfound⟩ := List.exists_of_findSome?_eq_some h
  cases event with
  | carried message' command effect' =>
      rw [LeaseEvent.answer?] at hfound
      split at hfound
      · next hmessage =>
        subst hmessage
        cases hfound
        exact ⟨command, hevent⟩
      · cases hfound
  | expired key => cases hfound
  | passed ms => cases hfound

theorem answer?_note (event : LeaseEvent) (message : MessageId) :
    (s.note event).answer? message = (s.answer? message).or (event.answer? message) := by
  show (s.journal ++ [event]).findSome? _ = _
  rw [List.findSome?_append, List.findSome?_singleton]
  rfl

theorem chances_note (event : LeaseEvent) (token : Token) :
    (s.note event).chances token = s.chances token + if event.gains token then 1 else 0 := by
  show _ + (s.journal ++ [event]).countP _ = _
  rw [List.countP_append, List.countP_singleton, ← Nat.add_assoc]
  rfl

theorem chances_send (command : LeaseCommand) (token : Token) :
    (s.send (some command)).chances token =
      s.chances token + if command.claims token then 1 else 0 := by
  show (s.underway ++ [(s.sent, command)]).countP _ + _ = _
  rw [List.countP_append, List.countP_singleton, Nat.add_right_comm]
  rfl

/-- A message that is under way is one chance, if it brings a claim. -/
theorem chances_take {p : MessageId × LeaseCommand} (hp : p ∈ s.underway) (token : Token) :
    s.chances token = (s.take p).chances token + if p.2.claims token then 1 else 0 := by
  show s.underway.countP _ + s.journal.countP _ =
    (s.underway.erase p).countP _ + s.journal.countP _ + _
  rw [(List.perm_cons_erase hp).countP_eq, List.countP_cons, Nat.add_right_comm]

/-- Only the lease matters that a claimant is after. -/
theorem Owes.congr {phase : ClaimantPhase} (h : s.Owes c phase) (hsame : c.SameLease c') :
    s.Owes c' phase := by
  have hclaim : c'.claim = c.claim := by
    rw [Claimant.claim, Claimant.claim, hsame.key, hsame.token, hsame.provider]
  have hfreeing : c'.lease.freeing = c.lease.freeing := by
    rw [LeaseHolder.freeing, LeaseHolder.freeing, hsame.key, hsame.token]
  unfold Owes at h ⊢
  rw [hclaim, hfreeing, hsame.token]
  exact h

/-! ### What a claimant need not mind -/

/-- Between two states of a contest nothing happens that is bad for the claimants with a
token. -/
structure Advances (s s' : Contest) (token : Token) : Prop where
  chances : s'.chances token ≤ s.chances token
  bears : ∀ message command, s.Bears message command → s'.Bears message command
  /-- A claim that has no effect is not under way any more. -/
  turnedDown : ∀ message command, s.Bears message command → command.claims token = true →
    s'.answer? message = some false →
    s.answer? message = some false ∨ s'.chances token < s.chances token
  journal : ∀ event ∈ s.journal, event ∈ s'.journal

theorem Backs.advance (h : s.Backs c) (hadvances : s.Advances s' c.lease.token) : s'.Backs c := by
  have honce := h.once
  have hchances := hadvances.chances
  refine ⟨Nat.le_trans hchances honce, ?_⟩
  have howes := h.owes
  generalize c.phase = phase at howes ⊢
  have hzero (hnone : s.chances c.lease.token = 0) : s'.chances c.lease.token = 0 :=
    Nat.le_zero.1 (hnone ▸ hchances)
  cases phase with
  | claiming => exact hzero howes
  | refused => exact hzero howes
  | asking message =>
      obtain ⟨hbears, hnone⟩ := howes
      refine ⟨hadvances.bears _ _ hbears, fun hanswer => ?_⟩
      have hclaims : c.claim.claims c.lease.token = true := decide_eq_true rfl
      rcases hadvances.turnedDown _ _ hbears hclaims hanswer with hbefore | hless
      · exact hzero (hnone hbefore)
      · omega
  | leaving command => exact howes
  | dropped command => exact howes
  | returning message => exact hadvances.bears _ _ howes
  | released result =>
      cases result with
      | ok _ =>
          obtain ⟨message, hfreed⟩ := howes
          exact ⟨message, hadvances.journal _ hfreed⟩
      | error cause => trivial
  | turnedAway cause => trivial
  | holding => trivial
  | gone => trivial

/-- A command is sent that does not claim a lease for the token. -/
theorem advances_send {command : LeaseCommand} (hclaims : command.claims token = false) :
    s.Advances (s.send (some command)) token where
  chances := by
    rw [chances_send, hclaims]
    exact Nat.le_refl _
  bears message command' h :=
    { sent := Nat.lt_succ_of_lt h.sent
      underway := fun p hp hmessage => by
        rcases mem_underway_send.1 hp with hp | rfl
        · exact h.underway p hp hmessage
        · exact absurd h.sent (by rw [← hmessage]; exact Nat.lt_irrefl _)
      journal := h.journal }
  turnedDown _ _ _ _ hanswer := .inl hanswer
  journal _ hevent := hevent

/-- Only the claimants are others. -/
theorem advances_claimants (claimants : List Claimant) :
    s.Advances { s with claimants } token where
  chances := Nat.le_refl _
  bears _ _ h := ⟨h.sent, h.underway, h.journal⟩
  turnedDown _ _ _ _ hanswer := .inl hanswer
  journal _ hevent := hevent

/-- A message is lost. -/
theorem advances_take (p : MessageId × LeaseCommand) : s.Advances (s.take p) token where
  chances := Nat.add_le_add_right (List.erase_sublist.countP_le) _
  bears _ _ h :=
    { sent := h.sent
      underway := fun p hp => h.underway p (List.mem_of_mem_erase hp)
      journal := h.journal }
  turnedDown _ _ _ _ hanswer := .inl hanswer
  journal _ hevent := hevent

/-- Something happens at the server that has nothing to do with messages. -/
theorem advances_note {event : LeaseEvent} (hquiet : event.IsQuiet) :
    s.Advances (s.note event) token where
  chances := by
    rw [chances_note, hquiet.gains]
    exact Nat.le_refl _
  bears _ _ h :=
    { sent := h.sent
      underway := h.underway
      journal := fun command' effect hmem => by
        rcases mem_journal_note.1 hmem with hmem | heq
        · exact h.journal _ _ hmem
        · exact absurd heq.symm (hquiet _ _ _) }
  turnedDown message _ _ _ hanswer := by
    rw [answer?_note, hquiet.answer?, Option.or_none] at hanswer
    exact .inl hanswer
  journal _ hmem := mem_journal_note.2 (.inl hmem)

/-- The command of a message is carried out. -/
theorem advances_serve {p : MessageId × LeaseCommand} (hp : p ∈ s.underway) (effect : Bool) :
    s.Advances ((s.take p).note (.carried p.1 p.2 effect)) token where
  chances := by
    rw [chances_note, chances_take hp]
    cases hclaims : p.2.claims token <;> cases effect <;> simp [LeaseEvent.gains, hclaims]
  bears message command h :=
    { sent := h.sent
      underway := fun q hq => h.underway q (List.mem_of_mem_erase hq)
      journal := fun command' effect' hmem => by
        rcases mem_journal_note.1 hmem with hmem | heq
        · exact h.journal _ _ hmem
        · cases heq
          exact h.underway p hp rfl }
  turnedDown message command h hclaims hanswer := by
    rw [answer?_note] at hanswer
    cases hbefore : s.answer? message with
    | some effect' =>
        replace hbefore : (s.take p).answer? message = some effect' := hbefore
        rw [hbefore] at hanswer
        exact .inl hanswer
    | none =>
        replace hbefore : (s.take p).answer? message = none := hbefore
        rw [hbefore, Option.none_or, LeaseEvent.answer?] at hanswer
        split at hanswer
        · next hmessage =>
          cases hanswer
          -- The claim is carried out just now, and in vain.
          right
          rw [chances_note, chances_take hp, h.underway p hp hmessage, hclaims]
          simp [LeaseEvent.gains]
        · cases hanswer
  journal _ hmem := mem_journal_note.2 (.inl hmem)

/-! ### What a claimant does -/

/-- A message that has not been sent before brings what is sent in it. -/
theorem Kept.bears_send (h : s.Kept) (command : LeaseCommand) :
    (s.send (some command)).Bears s.sent command where
  sent := Nat.lt_succ_self _
  underway p hp hmessage := by
    rcases mem_underway_send.1 hp with hp | rfl
    · exact absurd (h.underway p hp) (by rw [hmessage]; exact Nat.lt_irrefl _)
    · rfl
  journal command' effect hmem := absurd (h.arrived _ _ _ hmem) (Nat.lt_irrefl _)

/-- What a claimant sends concerns the lease that it is after. -/
theorem Backs.command (h : s.Backs c) {command : LeaseCommand}
    (hstep : c.Step s.sent s.answer? c' (some command)) :
    command.key = c.lease.key ∧ command.token = c.lease.token := by
  have howes := h.owes
  generalize hcommand : some command = command? at hstep
  cases hstep with
  | claim => cases hcommand; exact ⟨rfl, rfl⟩
  | renew => cases hcommand; exact ⟨rfl, rfl⟩
  | give hphase | free hphase =>
      cases hcommand
      rw [hphase] at howes
      rw [show command = c.lease.freeing from howes]
      exact ⟨rfl, rfl⟩
  | _ => cases hcommand

/-- A claimant claims the lease when it is about to, and then only. -/
theorem Backs.claims (h : s.Backs c) {command : LeaseCommand}
    (hstep : c.Step s.sent s.answer? c' (some command)) (hclaims : command.claims token = true) :
    c.phase = .claiming ∧ token = c.lease.token := by
  have howes := h.owes
  generalize hcommand : some command = command? at hstep
  cases hstep with
  | claim hphase =>
      cases hcommand
      exact ⟨hphase, (of_decide_eq_true hclaims).symm⟩
  | renew => cases hcommand; cases hclaims
  | give hphase | free hphase =>
      cases hcommand
      rw [hphase] at howes
      rw [show command = c.lease.freeing from howes] at hclaims
      cases hclaims
  | _ => cases hcommand

/-- A claimant that is told that its lease was freed is told the truth. -/
theorem owes_told {message : MessageId} {answer : LeaseAnswer}
    (hbears : s.Bears message c.lease.freeing)
    (hgiven : answer = none ∨ s.answer? message = answer) :
    s.Owes c (.released (c.lease.endRelease answer)) := by
  match answer with
  | none | some false => trivial
  | some true =>
      have hanswer : s.answer? message = some true := by simpa using hgiven
      obtain ⟨command, hmem⟩ := exists_carried_of_answer? hanswer
      exact ⟨message, hbears.journal _ _ hmem ▸ hmem⟩

/-- How far a claimant comes with a step. -/
theorem Kept.owes_step (h : s.Kept) (hbacks : s.Backs c) {command? : Option LeaseCommand}
    (hstep : c.Step s.sent s.answer? c' command?) : (s.send command?).Owes c c'.phase := by
  have howes := hbacks.owes
  cases hstep with
  | claim hphase =>
      refine ⟨h.bears_send c.claim, fun hanswer => ?_⟩
      obtain ⟨command, hmem⟩ := exists_carried_of_answer? (s := s) hanswer
      exact absurd (h.arrived _ _ _ hmem) (Nat.lt_irrefl _)
  | give hphase =>
      rw [hphase] at howes
      rw [show _ = c.lease.freeing from howes]
      exact h.bears_send c.lease.freeing
  | refused hphase hgiven =>
      rw [hphase] at howes
      exact howes.2 hgiven
  | told hphase hgiven =>
      rw [hphase] at howes
      exact owes_told howes hgiven
  | retry hphase =>
      rw [hphase] at howes
      exact howes
  | release | drop => rfl
  | renew => exact (hbacks.advance (advances_send rfl)).owes
  | renewed | halt => exact howes
  | free | granted | unheard | giveUp | lost | dropEarly | dropLate => trivial

/-- A claimant claims a lease again only if it has not got it yet. -/
theorem Kept.backs_step (h : s.Kept) (hbacks : s.Backs c) {command? : Option LeaseCommand}
    (hstep : c.Step s.sent s.answer? c' command?) : (s.send command?).Backs c' where
  once := by
    rw [hstep.sameLease.token]
    cases hcommand : command? with
    | none => exact hbacks.once
    | some command =>
        rw [hcommand] at hstep
        cases hclaims : command.claims c.lease.token with
        | false => exact (hbacks.advance (advances_send hclaims)).once
        | true =>
            have hnone : s.chances c.lease.token = 0 := by
              have howes := hbacks.owes
              rwa [(hbacks.claims hstep hclaims).1] at howes
            rw [chances_send, hnone, hclaims]
            exact Nat.le_refl 1
  owes := (h.owes_step hbacks hstep).congr hstep.sameLease

/-! ### One step of a contest -/

/-- What an act makes of a contest. -/
theorem act?_cases {act : ContestAct} (h : s.act? act = some s') :
    (∃ provider key token, act = .enter provider key token ∧
      (∀ c ∈ s.claimants, c.lease.token ≠ token) ∧
      s' = { s with claimants := s.claimants ++ [.new provider key token] }) ∨
    (∃ i what c c' command?, act = .claimant i what ∧ s.claimants[i]? = some c ∧
      c.Step s.sent s.answer? c' command? ∧ s' = (s.turn i c').send command?) ∨
    (∃ p, act = .serve p.1 ∧ p ∈ s.underway ∧
      s' = (s.take p).note (.carried p.1 p.2 (s.register.carryOut p.2).2)) ∨
    (∃ p, act = .lose p.1 ∧ p ∈ s.underway ∧ s' = s.take p) ∨
    (∃ key, act = .expire key ∧ s' = s.note (.expired key)) ∨
    ∃ ms, act = .pass ms ∧ s' = s.note (.passed ms) := by
  have hfound {message : MessageId} {p : MessageId × LeaseCommand}
      (hfind : s.underway.find? (fun p => p.1 = message) = some p) :
      p.1 = message ∧ p ∈ s.underway :=
    ⟨by simpa using List.find?_some hfind, List.mem_of_find?_eq_some hfind⟩
  cases act with
  | enter provider key token =>
      rw [act?] at h
      split at h
      · cases h
      · next hnew =>
        refine .inl ⟨provider, key, token, rfl, fun c hc htoken => hnew ?_, (Option.some.inj h).symm⟩
        exact List.any_eq_true.2 ⟨c, hc, decide_eq_true htoken⟩
  | claimant i what =>
      rw [act?] at h
      split at h
      · next c hc =>
        obtain ⟨⟨c', command?⟩, hact, rfl⟩ := Option.map_eq_some_iff.1 h
        exact .inr (.inl ⟨i, what, c, c', command?, rfl, hc, Claimant.step_of_act? hact, rfl⟩)
      · cases h
  | serve message =>
      obtain ⟨p, hfind, rfl⟩ := Option.map_eq_some_iff.1 h
      obtain ⟨rfl, hp⟩ := hfound hfind
      exact .inr (.inr (.inl ⟨p, rfl, hp, rfl⟩))
  | lose message =>
      obtain ⟨p, hfind, rfl⟩ := Option.map_eq_some_iff.1 h
      obtain ⟨rfl, hp⟩ := hfound hfind
      exact .inr (.inr (.inr (.inl ⟨p, rfl, hp, rfl⟩)))
  | expire key => exact .inr (.inr (.inr (.inr (.inl ⟨key, rfl, (Option.some.inj h).symm⟩))))
  | pass ms => exact .inr (.inr (.inr (.inr (.inr ⟨ms, rfl, (Option.some.inj h).symm⟩))))

theorem sound_empty : empty.Sound where
  replayed := rfl
  truthful := LeaseRegister.truthful_nil
  underway p hp := by cases hp
  arrived message command effect hmem := by cases hmem
  backed i c hc := by cases hc
  distinct i j c c' hc := by cases hc
  sender command hsent := by
    rcases hsent with ⟨message, hmem⟩ | ⟨message, effect, hmem⟩ <;> cases hmem

/-- Something happens to messages and server, but not to the claimants. -/
theorem Sound.of_advances (h : s.Sound) (hkept : s'.Kept) (hclaimants : s'.claimants = s.claimants)
    (hadvances : ∀ token, s.Advances s' token) (hsent : ∀ command, s'.Sent command → s.Sent command) :
    s'.Sound :=
  { hkept with
    backed := fun i c hc => (h.backed i c (hclaimants ▸ hc)).advance (hadvances _)
    distinct := fun i j c c' hc hc' => h.distinct i j c c' (hclaimants ▸ hc) (hclaimants ▸ hc')
    sender := fun command hcommand => hclaimants ▸ h.sender command (hsent command hcommand) }

/-! ### The server -/

theorem Kept.take (h : s.Kept) (p : MessageId × LeaseCommand) : (s.take p).Kept where
  replayed := h.replayed
  truthful := h.truthful
  underway q hq := h.underway q (List.mem_of_mem_erase hq)
  arrived := h.arrived

/-- Something is written down that has happened. -/
theorem Kept.note (h : s.Kept) {event : LeaseEvent}
    (hcarried : ∀ message command effect, event = .carried message command effect →
      (s.register.carryOut command).2 = effect ∧ message < s.sent) : (s.note event).Kept where
  replayed := by
    show s.register.after event = .replay (s.journal ++ [event])
    rw [LeaseRegister.replay_concat, h.replayed]
  truthful := h.truthful.concat fun message command effect heq =>
    h.replayed ▸ (hcarried message command effect heq).1
  underway := h.underway
  arrived message command effect hmem := by
    rcases mem_journal_note.1 hmem with hmem | heq
    · exact h.arrived _ _ _ hmem
    · exact (hcarried _ _ _ heq.symm).2

theorem sent_take {p : MessageId × LeaseCommand} {command : LeaseCommand}
    (h : (s.take p).Sent command) : s.Sent command := by
  rcases h with ⟨message, hmem⟩ | hmem
  · exact .inl ⟨message, List.mem_of_mem_erase hmem⟩
  · exact .inr hmem

theorem Sound.take (h : s.Sound) (p : MessageId × LeaseCommand) : (s.take p).Sound :=
  h.of_advances (h.toKept.take p) rfl (fun _ => advances_take p) fun _ => sent_take

theorem Sound.note (h : s.Sound) {event : LeaseEvent} (hquiet : event.IsQuiet) :
    (s.note event).Sound := by
  refine h.of_advances (h.toKept.note fun _ _ _ heq => absurd heq (hquiet _ _ _)) rfl
    (fun _ => advances_note hquiet) fun command hsent => ?_
  rcases hsent with hmem | ⟨message, effect, hmem⟩
  · exact .inl hmem
  · rcases mem_journal_note.1 hmem with hmem | heq
    · exact .inr ⟨message, effect, hmem⟩
    · exact absurd heq.symm (hquiet _ _ _)

theorem Sound.serve (h : s.Sound) {p : MessageId × LeaseCommand} (hp : p ∈ s.underway) :
    ((s.take p).note (.carried p.1 p.2 (s.register.carryOut p.2).2)).Sound := by
  refine h.of_advances ((h.toKept.take p).note fun _ _ _ heq => ?_) rfl
    (fun _ => advances_serve hp _) fun command hsent => ?_
  · cases heq
    exact ⟨rfl, h.underway p hp⟩
  · rcases hsent with hmem | ⟨message, effect, hmem⟩
    · exact sent_take (.inl hmem)
    · rcases mem_journal_note.1 hmem with hmem | heq
      · exact .inr ⟨message, effect, hmem⟩
      · cases heq
        exact .inl ⟨p.1, hp⟩

/-! ### The claimants -/

/-- A token that nobody has used has no lease to hope for. -/
theorem Sound.chances_of_new (h : s.Sound) (hnew : ∀ c ∈ s.claimants, c.lease.token ≠ token) :
    s.chances token = 0 := by
  have hunsent {command : LeaseCommand} (hsent : s.Sent command) :
      command.claims token = false := by
    obtain ⟨i, c, hc, -, htoken⟩ := h.sender command hsent
    have hne := hnew c (List.mem_of_getElem? hc)
    cases command with
    | claim key token' ttl => exact decide_eq_false fun heq => hne (htoken.symm.trans heq)
    | renew key token' ttl => rfl
    | free key token' => rfl
  rw [chances, Nat.add_eq_zero_iff, List.countP_eq_zero, List.countP_eq_zero]
  refine ⟨fun p hp => ?_, fun event hevent => ?_⟩
  · rw [hunsent (.inl ⟨p.1, hp⟩)]
    exact Bool.false_ne_true
  · cases event with
    | carried message command effect =>
        rw [LeaseEvent.gains, hunsent (.inr ⟨message, effect, hevent⟩)]
        exact Bool.false_ne_true
    | expired key => exact Bool.false_ne_true
    | passed ms => exact Bool.false_ne_true

theorem Sound.enter (h : s.Sound) (provider : LeaseProvider) (key : String)
    (hnew : ∀ c ∈ s.claimants, c.lease.token ≠ token) :
    Sound { s with claimants := s.claimants ++ [.new provider key token] } := by
  have hcases {i : Nat} {d : Claimant}
      (hd : (s.claimants ++ [.new provider key token])[i]? = some d) :
      s.claimants[i]? = some d ∨ (i = s.claimants.length ∧ d = .new provider key token) := by
    rw [List.getElem?_append] at hd
    split at hd
    · exact .inl hd
    · next hge =>
      obtain ⟨hi, hd⟩ := List.getElem?_eq_some_iff.1 hd
      rw [List.length_singleton] at hi
      exact .inr ⟨by omega, by simpa using hd.symm⟩
  refine
    { replayed := h.replayed
      truthful := h.truthful
      underway := h.underway
      arrived := h.arrived
      backed := fun i d hd => ?_
      distinct := fun i j d d' hd hd' htoken => ?_
      sender := fun command hsent => ?_ }
  · rcases hcases hd with hd | ⟨-, rfl⟩
    · exact (h.backed i d hd).advance (advances_claimants _)
    · have hnone := h.chances_of_new hnew
      exact ⟨Nat.le_trans (Nat.le_of_eq hnone) (Nat.zero_le 1), hnone⟩
  · rcases hcases hd with hd | ⟨rfl, rfl⟩ <;> rcases hcases hd' with hd' | ⟨rfl, rfl⟩
    · exact h.distinct i j d d' hd hd' htoken
    · exact absurd htoken (hnew d (List.mem_of_getElem? hd))
    · exact absurd htoken.symm (hnew d' (List.mem_of_getElem? hd'))
    · rfl
  · obtain ⟨i, d, hd, hcommand⟩ := h.sender command hsent
    have hlt := (List.getElem?_eq_some_iff.1 hd).1
    exact ⟨i, d, by rw [List.getElem?_append_left hlt, hd], hcommand⟩

/-- A claimant among those there are after one of them has taken a step. -/
theorem of_turn {i j : Nat} {d : Claimant} (hd : (s.turn i c').claimants[j]? = some d) :
    (j = i ∧ d = c') ∨ (j ≠ i ∧ s.claimants[j]? = some d) := by
  replace hd : (s.claimants.set i c')[j]? = some d := hd
  rw [List.getElem?_set] at hd
  split at hd
  · next hij =>
    split at hd
    · exact .inl ⟨hij.symm, (Option.some.inj hd).symm⟩
    · cases hd
  · next hij => exact .inr ⟨Ne.symm hij, hd⟩

/-- Whoever was there before one of the claimants has taken a step is there after it. -/
theorem exists_turned {i j : Nat} {d : Claimant} (hc : s.claimants[i]? = some c)
    (hsame : c.SameLease c') (hd : s.claimants[j]? = some d) :
    ∃ d', (s.turn i c').claimants[j]? = some d' ∧ d'.lease.key = d.lease.key ∧
      d'.lease.token = d.lease.token := by
  show ∃ d', (s.claimants.set i c')[j]? = some d' ∧ _
  rw [List.getElem?_set]
  by_cases hij : i = j
  · subst hij
    obtain rfl := Option.some.inj (hc.symm.trans hd)
    have hlt := (List.getElem?_eq_some_iff.1 hc).1
    exact ⟨c', by rw [if_pos rfl, if_pos hlt], hsame.key, hsame.token⟩
  · exact ⟨d, by rw [if_neg hij, hd], rfl, rfl⟩

theorem Kept.send (h : s.Kept) (command? : Option LeaseCommand) : (s.send command?).Kept := by
  cases command? with
  | none => exact h
  | some command =>
      refine ⟨h.replayed, h.truthful, fun p hp => ?_, fun message command' effect hmem => ?_⟩
      · rcases mem_underway_send.1 hp with hp | rfl
        · exact Nat.lt_succ_of_lt (h.underway p hp)
        · exact Nat.lt_succ_self _
      · exact Nat.lt_succ_of_lt (h.arrived _ _ _ hmem)

theorem sent_send {command? : Option LeaseCommand} {command : LeaseCommand}
    (h : (s.send command?).Sent command) : s.Sent command ∨ command? = some command := by
  cases command? with
  | none => exact .inl h
  | some command' =>
      rcases h with ⟨message, hmem⟩ | hmem
      · rcases mem_underway_send.1 hmem with hmem | heq
        · exact .inl (.inl ⟨message, hmem⟩)
        · cases heq
          exact .inr rfl
      · exact .inl (.inr hmem)

/-- What one claimant sends is all the same to the others. -/
theorem Sound.backs_other (h : s.Sound) {i j : Nat} {d : Claimant} (hc : s.claimants[i]? = some c)
    {command? : Option LeaseCommand} (hstep : c.Step s.sent s.answer? c' command?) (hne : j ≠ i)
    (hd : s.claimants[j]? = some d) : (s.send command?).Backs d := by
  cases hcommand : command? with
  | none => exact h.backed j d hd
  | some command =>
      rw [hcommand] at hstep
      refine (h.backed j d hd).advance (advances_send ?_)
      rw [← Bool.not_eq_true]
      intro hclaims
      exact hne (h.distinct j i d c hd hc ((h.backed i c hc).claims hstep hclaims).2)

theorem Sound.step (h : s.Sound) {i : Nat} (hc : s.claimants[i]? = some c)
    {command? : Option LeaseCommand} (hstep : c.Step s.sent s.answer? c' command?) :
    Sound { s.send command? with claimants := (s.turn i c').claimants } := by
  have hbacks := h.backed i c hc
  have hsame := hstep.sameLease
  have hkept := h.toKept.send command?
  refine
    { replayed := hkept.replayed
      truthful := hkept.truthful
      underway := hkept.underway
      arrived := hkept.arrived
      backed := fun j d hd => ?_
      distinct := fun j k d d' hd hd' heq => ?_
      sender := fun command hsent => ?_ }
  · rcases of_turn hd with ⟨rfl, rfl⟩ | ⟨hne, hd⟩
    · exact (h.toKept.backs_step hbacks hstep).advance (advances_claimants _)
    · exact (h.backs_other hc hstep hne hd).advance (advances_claimants _)
  · have htoken {j : Nat} {d : Claimant} (hd : (s.turn i c').claimants[j]? = some d) :
        ∃ d', s.claimants[j]? = some d' ∧ d.lease.token = d'.lease.token := by
      rcases of_turn hd with ⟨rfl, rfl⟩ | ⟨-, hd⟩
      · exact ⟨c, hc, hsame.token⟩
      · exact ⟨d, hd, rfl⟩
    obtain ⟨e, he, hde⟩ := htoken hd
    obtain ⟨e', he', hde'⟩ := htoken hd'
    exact h.distinct j k e e' he he' (by rw [← hde, ← hde', heq])
  · have hsender : ∃ (j : Nat) (d : Claimant), s.claimants[j]? = some d ∧
        command.key = d.lease.key ∧ command.token = d.lease.token := by
      rcases sent_send (s := s) hsent with hsent | rfl
      · exact h.sender command hsent
      · exact ⟨i, c, hc, hbacks.command hstep⟩
    obtain ⟨j, d, hd, hkey, htoken⟩ := hsender
    obtain ⟨d', hd', hkey', htoken'⟩ := exists_turned hc hsame hd
    exact ⟨j, d', hd', hkey.trans hkey'.symm, htoken.trans htoken'.symm⟩

theorem send_turn (i : Nat) (c' : Claimant) (command? : Option LeaseCommand) :
    (s.turn i c').send command? =
      { s.send command? with claimants := (s.turn i c').claimants } := by
  cases command? <;> rfl

/-! ### Every run -/

theorem Sound.act? (h : s.Sound) {act : ContestAct} (hact : s.act? act = some s') : s'.Sound := by
  rcases act?_cases hact with ⟨provider, key, token, -, hnew, rfl⟩ |
    ⟨i, what, c, c', command?, -, hc, hstep, rfl⟩ | ⟨p, -, hp, rfl⟩ | ⟨p, -, hp, rfl⟩ |
    ⟨key, -, rfl⟩ | ⟨ms, -, rfl⟩
  · exact h.enter provider key hnew
  · exact send_turn i c' command? ▸ h.step hc hstep
  · exact h.serve hp
  · exact h.take p
  · exact h.note fun _ _ _ heq => by cases heq
  · exact h.note fun _ _ _ heq => by cases heq

/-- What is the case at the beginning and is kept by every act is the case in the end. -/
theorem of_run? {motive : Contest → Prop} (hempty : motive empty)
    (hact : ∀ s s' act, motive s → s.act? act = some s' → motive s') {acts : List ContestAct}
    (hrun : empty.run? acts = some s) : motive s := by
  suffices hall : ∀ start : Contest, motive start → start.run? acts = some s → motive s from
    hall empty hempty hrun
  clear hrun
  induction acts with
  | nil =>
      intro start hstart hrun
      exact Option.some.inj hrun ▸ hstart
  | cons act acts ih =>
      intro start hstart hrun
      rw [run?, List.foldlM_cons] at hrun
      obtain ⟨after, hfirst, hrun⟩ := Option.bind_eq_some_iff.1 hrun
      exact ih after (hact start after act hstart hfirst) hrun

/-- Everything that can come about is sound. -/
theorem sound_of_run? {acts : List ContestAct} (hrun : empty.run? acts = some s) : s.Sound :=
  of_run? sound_empty (fun _ _ _ hsound hact => hsound.act? hact) hrun

end Contest

end WordDuel
