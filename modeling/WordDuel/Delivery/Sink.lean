import WordDuel.Event
import WordDuel.Failure
/-!
# WordDuel.Delivery.Sink

**Where events go.** A leaf takes events in and may report a failure, depending on
the event and on what it took in before. A bus hands every event to each of its
sinks in order, whatever the others report, and reports all their failures as one.
-/

namespace WordDuel

/-- How a leaf reacts to an event: what it reports, outermost context first, if it
fails. The first argument is what it took in before. -/
abbrev Reaction := List Envelope → Envelope → Option (List String)

/-- A destination of events. -/
inductive Sink
  /-- A destination of its own, known by a name. -/
  | leaf (name : String) (react : Reaction) (received : List Envelope)
  /-- Several destinations. -/
  | bus (sinks : List Sink)

namespace Sink

/-! ### Kinds of leaves -/

/-- A leaf that takes in everything without failing. -/
def recorder : Sink := .leaf "recorder" (fun _ _ => none) []

/-- A leaf that writes everything to the log without failing. -/
def logger : Sink := .leaf "log" (fun _ _ => none) []

/-- A leaf that fails every time. -/
def broken (report : List String) : Sink := .leaf "broken" (fun _ _ => some report) []

/-! ### Publishing -/

/-- What a bus reports when some of its sinks failed. -/
def busReport (total : Nat) (failures : List (List String)) : Option (List String) :=
  if failures = [] then none
  else some [Decimal.ofNat failures.length ++ " of " ++ Decimal.ofNat total ++ " sinks failed: " ++
    "; ".intercalate (failures.map joinChain)]

mutual

/-- Hand an event to a sink: the sink afterwards, and what it reports if it fails. -/
def publish (e : Envelope) : Sink → Sink × Option (List String)
  | .leaf name react received => (.leaf name react (received ++ [e]), react received e)
  | .bus sinks =>
    let (sinks', failures) := publishEach e sinks
    (.bus sinks', busReport sinks.length failures)

/-- Hand an event to each of some sinks: the sinks afterwards, and what those report
that fail. -/
def publishEach (e : Envelope) : List Sink → List Sink × List (List String)
  | [] => ([], [])
  | s :: ss =>
    let (s', report) := publish e s
    let (ss', reports) := publishEach e ss
    (s' :: ss', report.toList ++ reports)

end

/-- Hand the events of a room to a sink, one after the other. Failures stop nothing:
the change that is announced is stored already. -/
def publishAll (sink : Sink) (room : RoomId) (events : List Event) : Sink :=
  events.foldl (fun sink event => (sink.publish ⟨room, event⟩).1) sink

mutual

/-- The leaves of a sink with what they took in, in order. -/
def leaves : Sink → List (String × List Envelope)
  | .leaf name _ received => [(name, received)]
  | .bus sinks => leavesOf sinks

/-- The leaves of some sinks with what they took in, in order. -/
def leavesOf : List Sink → List (String × List Envelope)
  | [] => []
  | s :: ss => leaves s ++ leavesOf ss

end

mutual

/-- Hand an event to the first leaves of a sink only, so many of them: whoever publishes
it does not come further. -/
def publishPart (e : Envelope) (n : Nat) : Sink → Sink
  | .leaf name react received =>
    if n = 0 then .leaf name react received else .leaf name react (received ++ [e])
  | .bus sinks => .bus (publishPartEach e n sinks)

/-- Hand an event to the first leaves of some sinks only, so many of them. -/
def publishPartEach (e : Envelope) (n : Nat) : List Sink → List Sink
  | [] => []
  | s :: ss => publishPart e n s :: publishPartEach e (n - s.leaves.length) ss

end

/-- The number of sinks of a bus. -/
def count : Sink → Nat
  | .leaf _ _ _ => 1
  | .bus sinks => sinks.length

/-- A bus with one more sink at its end. -/
def add : (bus sink : Sink) → Sink
  | .bus sinks, sink => .bus (sinks ++ [sink])
  | other, _ => other

/-! ### What the leaves take in -/

mutual

/-- Every leaf of a sink takes in what is handed to the sink. -/
theorem leaves_publish (e : Envelope) (s : Sink) :
    (publish e s).1.leaves = s.leaves.map fun leaf => (leaf.1, leaf.2 ++ [e]) :=
  match s with
  | .leaf _ _ _ => rfl
  | .bus sinks => leavesOf_publishEach e sinks

theorem leavesOf_publishEach (e : Envelope) (ss : List Sink) :
    leavesOf (publishEach e ss).1 = (leavesOf ss).map fun leaf => (leaf.1, leaf.2 ++ [e]) :=
  match ss with
  | [] => rfl
  | s :: ss => by
    rw [publishEach, leavesOf, leavesOf, List.map_append, leaves_publish e s,
      leavesOf_publishEach e ss]

end

mutual

theorem leaves_publishPart (e : Envelope) (n : Nat) (s : Sink) :
    (publishPart e n s).leaves =
      (s.leaves.take n).map (fun leaf => (leaf.1, leaf.2 ++ [e])) ++ s.leaves.drop n :=
  match s with
  | .leaf name react received => by
    rcases n with - | n <;> simp [publishPart, leaves]
  | .bus sinks => leavesOf_publishPartEach e n sinks

theorem leavesOf_publishPartEach (e : Envelope) (n : Nat) (ss : List Sink) :
    leavesOf (publishPartEach e n ss) =
      ((leavesOf ss).take n).map (fun leaf => (leaf.1, leaf.2 ++ [e])) ++ (leavesOf ss).drop n :=
  match ss with
  | [] => by simp [publishPartEach, leavesOf]
  | s :: ss => by
    rw [publishPartEach, leavesOf, leavesOf, leaves_publishPart e n s,
      leavesOf_publishPartEach e (n - s.leaves.length) ss, List.take_append, List.drop_append]
    rcases Nat.le_total n s.leaves.length with hle | hle
    · simp [Nat.sub_eq_zero_of_le hle]
    · simp [List.drop_of_length_le hle]

end

mutual

/-- Whoever comes past all leaves has published the event. -/
theorem publishPart_of_length_le (e : Envelope) {n : Nat} (s : Sink) (h : s.leaves.length ≤ n) :
    publishPart e n s = (publish e s).1 :=
  match s with
  | .leaf _ _ _ => if_neg (Nat.ne_of_gt h)
  | .bus sinks => congrArg Sink.bus (publishPartEach_of_length_le e sinks h)

theorem publishPartEach_of_length_le (e : Envelope) {n : Nat} (ss : List Sink)
    (h : (leavesOf ss).length ≤ n) : publishPartEach e n ss = (publishEach e ss).1 :=
  match ss with
  | [] => rfl
  | s :: ss => by
    rw [leavesOf, List.length_append] at h
    rw [publishPartEach, publishEach, publishPart_of_length_le e s (by omega),
      publishPartEach_of_length_le e ss (by omega)]

end

theorem leaves_publishAll (s : Sink) (room : RoomId) (events : List Event) :
    (s.publishAll room events).leaves =
      s.leaves.map fun leaf => (leaf.1, leaf.2 ++ events.map (⟨room, ·⟩)) := by
  induction events generalizing s with
  | nil => simp [publishAll]
  | cons event events ih =>
      show ((publish ⟨room, event⟩ s).1.publishAll room events).leaves = _
      rw [ih, leaves_publish, List.map_map]
      simp

end Sink

end WordDuel
