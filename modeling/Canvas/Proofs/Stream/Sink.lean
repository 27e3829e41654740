import Canvas.Proofs.Stream.Separation
import Canvas.Stream.Sink

/-!
# What sinks hand on

A sink that took some events hands on all of them and in their order, each in its own way. The
receiver of a channel finds them waiting. A broadcast numbers them, and a subscriber who asks for a
number gets the event with this number as long as it is among the latest that are kept. A tracer
has recorded them.
-/

namespace Canvas

namespace Broadcast

variable {α : Type} {broadcast : Broadcast α} {items : List α}

/-- Whether a broadcast was sent some items, and no others, since it was made. -/
structure Sent (broadcast : Broadcast α) (items : List α) : Prop where
  count : broadcast.sent = items.length
  latest : broadcast.kept = items.rtake broadcast.capacity

theorem sent_ofCapacity (capacity : Nat) : (ofCapacity capacity : Broadcast α).Sent [] :=
  ⟨rfl, List.drop_nil.symm⟩

theorem Sent.send (h : broadcast.Sent items) (item : α) :
    (broadcast.send item).Sent (items ++ [item]) := by
  refine ⟨?_, ?_⟩
  · rw [List.length_append, List.length_singleton, ← h.count]
    rfl
  · change (broadcast.kept ++ [item]).rtake broadcast.capacity = _
    rw [h.latest, rtake_rtake_append]
    rfl

theorem Sent.oldest_eq (h : broadcast.Sent items) :
    broadcast.oldest = items.length - broadcast.capacity := by
  rw [oldest, h.count, h.latest, List.rtake, List.length_drop]
  omega

/-- A subscriber gets the items one after the other. Only one that is further behind than the
broadcast reaches back misses items; it is told how many, and goes on with those that are kept. -/
theorem Sent.receive_eq (h : broadcast.Sent items) (next : Nat) :
    broadcast.receive next =
      if next + broadcast.capacity < items.length then
        (.lagged (items.length - broadcast.capacity - next), items.length - broadcast.capacity)
      else (items[next]?.elim .empty .item, if next < items.length then next + 1 else next) := by
  unfold receive
  rw [h.oldest_eq]
  by_cases behind : next + broadcast.capacity < items.length
  · rw [if_pos behind, if_pos (by omega)]
  · rw [if_neg behind, if_neg (by omega), h.latest, List.rtake, List.getElem?_drop]
    rw [Nat.add_sub_cancel' (by omega)]
    cases found : items[next]? with
    | none =>
        rw [if_neg (Nat.not_lt.2 (List.getElem?_eq_none_iff.1 found))]
        rfl
    | some item =>
        rw [if_pos (List.getElem?_eq_some_iff.1 found).1]
        rfl

end Broadcast

namespace Sink

variable {sink : Sink} {events earlier : List Event}

/-- Whether a sink took some events, and no others, since it was made. The receiver of a channel is
there and has not asked yet. -/
inductive Took : Sink → List Event → Prop
  | channel {events : List Event} : Took (.channel ⟨events, true⟩) events
  | broadcast {b : Broadcast Event} {events : List Event} (sent : b.Sent events) :
      Took (.broadcast b) events
  | tracer {events : List Event} (capacity : Nat) :
      Took (.tracer ((Tracer.ofCapacity capacity).recordAll events)) events

theorem Took.sent {b : Broadcast Event} (h : (Sink.broadcast b).Took events) : b.Sent events := by
  cases h with
  | broadcast sent => exact sent

theorem Took.take (h : sink.Took events) (event : Event) :
    (sink.take event).Took (events ++ [event]) := by
  cases h with
  | channel => exact .channel
  | broadcast sent => exact .broadcast (sent.send event)
  | tracer capacity =>
      have recorded : ((Tracer.ofCapacity capacity).recordAll events).record event =
          (Tracer.ofCapacity capacity).recordAll (events ++ [event]) := by
        rw [Tracer.recordAll_append]
        rfl
      rw [Sink.take, recorded]
      exact .tracer capacity

/-- A sink that took some events has taken all that are handed to it after them. -/
theorem Took.takeAll (h : sink.Took earlier) (events : List Event) :
    (events.foldl Sink.take sink).Took (earlier ++ events) := by
  induction events generalizing sink earlier with
  | nil => rwa [List.append_nil]
  | cons event rest ih =>
      rw [List.append_cons]
      exact ih (h.take event)

theorem foldl_take_tracer (t : Tracer) (events : List Event) :
    events.foldl Sink.take (tracer t) = tracer (t.recordAll events) := by
  induction events generalizing t with
  | nil => rfl
  | cons event rest ih => exact ih (t.record event)

end Sink

end Canvas
