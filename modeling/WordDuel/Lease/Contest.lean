import WordDuel.Lease.Claimant
/-!
# WordDuel.Lease.Contest

**Many claimants and one lease server.** Commands travel in messages, each of which is carried
out once, in any order and as late as you like, or lost. No two claimants have the same token.
Leases expire whenever they please. Everything that happens at the server is kept in a journal,
and so are the answers.
-/

namespace WordDuel

/-- A lease server and everybody who uses it. -/
structure Contest where
  register : LeaseRegister
  /-- The claimants, in order of arrival. -/
  claimants : List Claimant
  /-- The messages that have not arrived yet. -/
  underway : List (MessageId × LeaseCommand)
  /-- The number of messages sent so far, which is the next one's number. -/
  sent : Nat
  /-- What has happened at the server, from the beginning. -/
  journal : List LeaseEvent

/-- What can happen next. -/
inductive ContestAct
  /-- Somebody begins to ask for a lock. -/
  | enter (provider : LeaseProvider) (key : String) (token : Token)
  /-- A claimant or its renewer takes a step. -/
  | claimant (i : Nat) (act : ClaimantAct)
  /-- A message arrives, and its command is carried out. -/
  | serve (message : MessageId)
  /-- A message is lost. -/
  | lose (message : MessageId)
  /-- The lease of a key expires. -/
  | expire (key : String)
  /-- Time goes by. -/
  | pass (ms : Nat)

/-- What an event at the server means for whoever sent a message: whether its command had an
effect. -/
def LeaseEvent.answer? (message : MessageId) : LeaseEvent → Option Bool
  | .carried message' _ effect => if message' = message then some effect else none
  | _ => none

namespace Contest

/-- A server without leases, of which nobody has asked anything. -/
def empty : Contest := ⟨.empty, [], [], 0, []⟩

variable (s : Contest)

/-- The answer to the command of a message, once it has been carried out. -/
def answer? (message : MessageId) : Option Bool :=
  s.journal.findSome? (LeaseEvent.answer? message)

/-- Put a claimant in the place of what it was before. -/
def turn (i : Nat) (c : Claimant) : Contest := { s with claimants := s.claimants.set i c }

/-- Send a command, if there is one to send. -/
def send : Option LeaseCommand → Contest
  | some command =>
    { s with underway := s.underway ++ [(s.sent, command)], sent := s.sent + 1 }
  | none => s

/-- Something happens at the server. -/
def note (event : LeaseEvent) : Contest :=
  { s with register := s.register.after event, journal := s.journal ++ [event] }

/-- A message is no longer under way. -/
def take (p : MessageId × LeaseCommand) : Contest := { s with underway := s.underway.erase p }

/-- Perform an act, if it is one of those that can be next. -/
def act? : ContestAct → Option Contest
  | .enter provider key token =>
    if s.claimants.any fun c => c.lease.token = token then none
    else some { s with claimants := s.claimants ++ [.new provider key token] }
  | .claimant i act =>
    match s.claimants[i]? with
    | some c =>
      (c.act? s.sent s.answer? act).map fun (c, command?) => (s.turn i c).send command?
    | none => none
  | .serve message =>
    (s.underway.find? fun p => p.1 = message).map fun p =>
      (s.take p).note (.carried p.1 p.2 (s.register.carryOut p.2).2)
  | .lose message => (s.underway.find? fun p => p.1 = message).map s.take
  | .expire key => some (s.note (.expired key))
  | .pass ms => some (s.note (.passed ms))

/-- Perform acts one after the other. -/
def run? (acts : List ContestAct) : Option Contest := acts.foldlM act? s

end Contest

end WordDuel
