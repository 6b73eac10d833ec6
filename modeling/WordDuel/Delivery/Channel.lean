import WordDuel.Event
/-!
# WordDuel.Delivery.Channel

**A broadcast channel** of bounded memory. Every subscriber receives, in order, what
is sent after it subscribed. A subscriber that has fallen behind by more than the
channel keeps is told once how many events it lost, and goes on with the oldest
kept. What is sent while nobody is subscribed is not kept at all.
-/

namespace WordDuel

/-- A broadcast channel. -/
structure Channel where
  /-- The number of events that are kept. -/
  capacity : Nat
  /-- Everything sent while somebody was subscribed, in order. -/
  sent : List Envelope
  /-- The subscribers by name, each with the number of events it is past. -/
  cursors : List (String × Nat)

/-- What a subscriber receives. -/
inductive Received
  /-- The next event. -/
  | envelope (e : Envelope)
  /-- Nothing for now. -/
  | nothing
  /-- So many events were lost. -/
  | lagged (n : Nat)
  deriving DecidableEq

namespace Channel

/-- The least power of two that is not below a number, looked for from `p` on in at
most `fuel` doublings. -/
def powerFrom : (fuel p n : Nat) → Nat
  | 0, p, _ => p
  | fuel + 1, p, n => if n ≤ p then p else powerFrom fuel (p * 2) n

/-- A channel that keeps at least so many events; the number kept is a power of two. -/
def new (capacity : Nat) : Channel := ⟨powerFrom capacity 1 capacity, [], []⟩

/-- The number of subscribers. -/
def subscribers (c : Channel) : Nat := c.cursors.length

/-- Remove a subscriber. -/
def unsubscribe (c : Channel) (name : String) : Channel :=
  { c with cursors := c.cursors.filter fun p => p.1 ≠ name }

/-- Add a subscriber, in the place of one of the same name. -/
def subscribe (c : Channel) (name : String) : Channel :=
  let c := c.unsubscribe name
  { c with cursors := c.cursors ++ [(name, c.sent.length)] }

/-- Send an event. -/
def send (c : Channel) (e : Envelope) : Channel :=
  if c.cursors = [] then c else { c with sent := c.sent ++ [e] }

/-- Move a subscriber past so many events. -/
def moveTo (c : Channel) (name : String) (n : Nat) : Channel :=
  { c with cursors := c.cursors.map fun p => if p.1 = name then (name, n) else p }

/-- Receive what is next for a subscriber, without waiting. -/
def receive (c : Channel) (name : String) : Received × Channel :=
  match c.cursors.lookup name with
  | none => (.nothing, c)
  | some n =>
    -- The place of the oldest event that is kept.
    let oldest := c.sent.length - c.capacity
    if n < oldest then (.lagged (oldest - n), c.moveTo name oldest)
    else
      match c.sent[n]? with
      | some e => (.envelope e, c.moveTo name (n + 1))
      | none => (.nothing, c)

end Channel

end WordDuel
