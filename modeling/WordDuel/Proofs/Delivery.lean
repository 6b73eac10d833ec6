import WordDuel.Delivery.Sink
/-!
# WordDuel.Proofs.Delivery

**Every leaf is handed everything.** What a leaf reports is passed up to the buses that it belongs
to, and no further: each bus goes on with the next of its sinks, and whoever publishes a list of
events goes on with the next event. So a sink to which events have been published is the same tree
with the same leaves, each of which has taken in all of them in order (`Sink.publishAll_eq`). A bus
fails as often as one of its own sinks does, however deep the leaf may be that began it.
-/

namespace WordDuel

namespace Sink

/-! ### What is left behind -/

mutual

/-- A sink each leaf of which has taken in some more events. -/
def having (es : List Envelope) : Sink → Sink
  | .leaf name react received => .leaf name react (received ++ es)
  | .bus sinks => .bus (havingEach es sinks)

/-- Sinks each leaf of which has taken in some more events. -/
def havingEach (es : List Envelope) : List Sink → List Sink
  | [] => []
  | s :: ss => having es s :: havingEach es ss

end

mutual

theorem having_nil (s : Sink) : s.having [] = s :=
  match s with
  | .leaf _ _ _ => by rw [having, List.append_nil]
  | .bus sinks => congrArg Sink.bus (havingEach_nil sinks)

theorem havingEach_nil (ss : List Sink) : havingEach [] ss = ss :=
  match ss with
  | [] => rfl
  | s :: ss => by rw [havingEach, having_nil s, havingEach_nil ss]

end

mutual

theorem having_having (es es' : List Envelope) (s : Sink) :
    (s.having es).having es' = s.having (es ++ es') :=
  match s with
  | .leaf _ _ _ => by simp only [having, List.append_assoc]
  | .bus sinks => congrArg Sink.bus (havingEach_havingEach es es' sinks)

theorem havingEach_havingEach (es es' : List Envelope) (ss : List Sink) :
    havingEach es' (havingEach es ss) = havingEach (es ++ es') ss :=
  match ss with
  | [] => rfl
  | s :: ss => by
    simp only [havingEach, having_having es es' s, havingEach_havingEach es es' ss]

end

mutual

/-- Publishing an event leaves nothing behind but the event, at every leaf. -/
theorem publish_fst (e : Envelope) (s : Sink) : (s.publish e).1 = s.having [e] :=
  match s with
  | .leaf _ _ _ => rfl
  | .bus sinks => congrArg Sink.bus (publishEach_fst e sinks)

theorem publishEach_fst (e : Envelope) (ss : List Sink) :
    (publishEach e ss).1 = havingEach [e] ss :=
  match ss with
  | [] => rfl
  | s :: ss => by
    rw [publishEach, havingEach, ← publish_fst e s, ← publishEach_fst e ss]

end

/-- Publishing events leaves nothing behind but the events, whatever is reported. -/
theorem publishAll_eq (s : Sink) (room : RoomId) (events : List Event) :
    s.publishAll room events = s.having (events.map (⟨room, ·⟩)) := by
  induction events generalizing s with
  | nil => exact (having_nil s).symm
  | cons event events ih =>
      have hstep : s.publishAll room (event :: events) =
          (s.publish ⟨room, event⟩).1.publishAll room events := rfl
      rw [hstep, ih, publish_fst, having_having, List.map_cons, List.singleton_append]

/-! ### What is reported -/

/-- What a sink reports if it fails, in one line. -/
def complaint? (e : Envelope) (s : Sink) : Option String := (s.publish e).2.map joinChain

/-- A bus hears from each of its own sinks that fails, in order. -/
theorem publishEach_snd (e : Envelope) (ss : List Sink) :
    (publishEach e ss).2 = ss.filterMap fun s => (s.publish e).2 := by
  induction ss with
  | nil => rfl
  | cons s ss ih =>
      have hreports : (publishEach e (s :: ss)).2 =
          (s.publish e).2.toList ++ (publishEach e ss).2 := rfl
      rw [hreports, ih, List.filterMap_cons]
      cases (s.publish e).2 with
      | none => rfl
      | some report => rfl

theorem publish_bus_snd (e : Envelope) (sinks : List Sink) :
    ((bus sinks).publish e).2 =
      busReport sinks.length (sinks.filterMap fun s => (s.publish e).2) := by
  rw [← publishEach_snd]
  rfl

/-- A bus that hears of failures reports how many there are of how many sinks, and what they are. -/
theorem busReport_eq_some_iff {total : Nat} {failures : List (List String)}
    {report : List String} :
    busReport total failures = some report ↔
      failures ≠ [] ∧ report = [Decimal.ofNat failures.length ++ " of " ++ Decimal.ofNat total ++
        " sinks failed: " ++ "; ".intercalate (failures.map joinChain)] := by
  rw [busReport]
  by_cases hnone : failures = []
  · simp [hnone]
  · simp [hnone, eq_comm]

theorem filterMap_publish_ne_nil_iff (e : Envelope) (ss : List Sink) :
    (ss.filterMap fun s => (s.publish e).2) ≠ [] ↔ ∃ s ∈ ss, (s.publish e).2.isSome := by
  simp [List.filterMap_eq_nil_iff, Option.isSome_iff_ne_none]

/-! ### A bus -/

/-- Let events of a room be published to a bus, which may hold other buses in any depth. Every leaf
takes in these events and nothing else, in order, each once and addressed to the room, and nothing
else about the bus changes; whatever the leaves may report depending on what they have taken in,
there is no failure. A bus to which a single event is published fails if and only if one of its own
sinks does. Then its report says how many of how many sinks failed, and what each of them reports,
in the order of the sinks. -/
theorem every_leaf_served (sinks : List Sink) :
    (∀ (room : RoomId) (events : List Event),
      (bus sinks).publishAll room events = (bus sinks).having (events.map (⟨room, ·⟩)) ∧
      ((bus sinks).publishAll room events).leaves =
        (bus sinks).leaves.map fun leaf => (leaf.1, leaf.2 ++ events.map (⟨room, ·⟩))) ∧
    ∀ e : Envelope,
      (((bus sinks).publish e).2.isSome ↔ ∃ s ∈ sinks, (s.publish e).2.isSome) ∧
      ∀ report, ((bus sinks).publish e).2 = some report ↔
        (∃ s ∈ sinks, (s.publish e).2.isSome) ∧
        report = [Decimal.ofNat (sinks.countP fun s => (s.publish e).2.isSome) ++ " of " ++
          Decimal.ofNat sinks.length ++ " sinks failed: " ++
          "; ".intercalate (sinks.filterMap (complaint? e))] := by
  refine ⟨fun room events => ⟨publishAll_eq _ room events, leaves_publishAll _ room events⟩, ?_⟩
  intro e
  have hreport (report : List String) : ((bus sinks).publish e).2 = some report ↔
      (∃ s ∈ sinks, (s.publish e).2.isSome) ∧
      report = [Decimal.ofNat (sinks.countP fun s => (s.publish e).2.isSome) ++ " of " ++
        Decimal.ofNat sinks.length ++ " sinks failed: " ++
        "; ".intercalate (sinks.filterMap (complaint? e))] := by
    rw [publish_bus_snd, busReport_eq_some_iff, filterMap_publish_ne_nil_iff,
      List.length_filterMap_eq_countP, List.map_filterMap]
    rfl
  refine ⟨?_, hreport⟩
  rw [Option.isSome_iff_exists]
  constructor
  · rintro ⟨report, hfails⟩
    exact ((hreport report).1 hfails).1
  · intro hfailed
    exact ⟨_, (hreport _).2 ⟨hfailed, rfl⟩⟩

/-- A bus within a bus: one failure of the outer bus is that of the inner one. -/
example : ((bus [recorder, broken ["no way", "offline"], bus [broken ["full"], recorder]]).publish
    ⟨⟨7⟩, .roundFinished 1⟩).2 =
      some ["2 of 3 sinks failed: no way: offline; 1 of 2 sinks failed: full"] := by
  decide +kernel

end Sink

end WordDuel
