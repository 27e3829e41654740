import Canvas.Engine
import Canvas.Proofs.Stream.Sink
import Canvas.Stream.Hub
import Mathlib.Logic.Function.Basic

/-!
# Deliveries in rounds

An event goes to several outlets one after the other: to the tracer, to the broadcast, and to an
extra sink if there is one. Each of these deliveries is a step of its own, and the deliveries of one
event after the other are rounds. What an outlet is like after any deliveries is a matter of the
events among them that reached it.

A fan-out makes just these rounds. In a hub whose sinks stand for the outlets, an event that is
emitted to a fan-out of them leaves every sink as its outlet is after the round of the event.
-/

namespace Canvas

/-- Where events are delivered. Extra sinks are numbered; runs may share one. -/
inductive Outlet where
  | tracer
  | broadcast
  | extra (number : Nat)
  deriving DecidableEq

/-- An event that reaches an outlet. -/
structure Delivery where
  outlet : Outlet
  event : Event

namespace Delivery

variable {outlet : Outlet} {outlets : List Outlet} {event : Event} {events : List Event}

/-- The deliveries of one event after the other, each to all outlets in turn. -/
def rounds (outlets : List Outlet) (events : List Event) : List Delivery :=
  events.flatMap fun event => outlets.map (⟨·, event⟩)

/-- The events that reach an outlet. -/
def received (outlet : Outlet) (deliveries : List Delivery) : List Event :=
  deliveries.filterMap fun delivery =>
    if delivery.outlet = outlet then some delivery.event else none

theorem rounds_cons (outlets : List Outlet) (event : Event) (events : List Event) :
    rounds outlets (event :: events) = outlets.map (⟨·, event⟩) ++ rounds outlets events :=
  List.flatMap_cons

theorem received_append (outlet : Outlet) (before after : List Delivery) :
    received outlet (before ++ after) = received outlet before ++ received outlet after :=
  List.filterMap_append

theorem received_filter (outlet : Outlet) (id : Uuid) (deliveries : List Delivery) :
    (received outlet deliveries).filter (·.runId = id) =
      received outlet (deliveries.filter (·.event.runId = id)) := by
  induction deliveries with
  | nil => rfl
  | cons delivery rest ih =>
      obtain ⟨other, event⟩ := delivery
      simp only [received] at ih ⊢
      by_cases here : other = outlet
      · by_cases own : event.runId = id
        · simp [here, own, ih]
        · simp [here, own, ih]
      · by_cases own : event.runId = id
        · simp [here, own, ih]
        · simp [here, own, ih]

/-- In a round every outlet gets the event once. -/
theorem received_round (distinct : outlets.Nodup) (outlet : Outlet) (event : Event) :
    received outlet (outlets.map (⟨·, event⟩)) = if outlet ∈ outlets then [event] else [] := by
  induction outlets with
  | nil => rfl
  | cons first rest ih =>
      obtain ⟨new, distinct⟩ := List.nodup_cons.1 distinct
      have later := ih distinct
      simp only [received] at later ⊢
      by_cases same : first = outlet
      · subst same
        simp [later, new]
      · simp [later, same, Ne.symm same]

/-- In rounds every outlet gets all events in order. -/
theorem received_rounds (distinct : outlets.Nodup) (outlet : Outlet) (events : List Event) :
    received outlet (rounds outlets events) = if outlet ∈ outlets then events else [] := by
  induction events with
  | nil => simp [rounds, received]
  | cons event rest ih =>
      rw [rounds_cons, received_append, received_round distinct, ih]
      by_cases listed : outlet ∈ outlets
      · simp [listed]
      · simp [listed]

/-- In the midst of a round the outlets that had their turn are one event ahead of the others. -/
theorem received_in_round {k : Nat} {earlier later : List Outlet} (distinct : outlets.Nodup)
    (turn : outlets = earlier ++ later) (event? : events[k]? = some event)
    (listed : outlet ∈ outlets) :
    received outlet (rounds outlets (events.take k) ++ earlier.map (⟨·, event⟩)) =
      events.take (if outlet ∈ earlier then k + 1 else k) := by
  have once : earlier.Nodup := (List.nodup_append.1 (turn ▸ distinct)).1
  rw [received_append, received_rounds distinct, if_pos listed, received_round once]
  by_cases reached : outlet ∈ earlier
  · rw [if_pos reached, if_pos reached, List.take_add_one, event?]
    rfl
  · rw [if_neg reached, if_neg reached, List.append_nil]

/-- A delivery among those that come in rounds belongs to the round of its event. The rounds of all
events before are over, and in its own round the outlets before it had their turn. -/
theorem exists_round {before : List Delivery} {delivery : Delivery}
    (h : before ++ [delivery] <+: rounds outlets events) :
    ∃ k earlier later, events[k]? = some delivery.event ∧
      outlets = earlier ++ delivery.outlet :: later ∧
      before = rounds outlets (events.take k) ++ earlier.map (⟨·, delivery.event⟩) := by
  induction events generalizing before with
  | nil =>
      have none := List.prefix_nil.1 h
      simp at none
  | cons event rest ih =>
      rw [rounds_cons] at h
      have round := List.prefix_append (outlets.map (Delivery.mk · event)) (rounds outlets rest)
      by_cases within : before.length < outlets.length
      · have inside : before ++ [delivery] <+: outlets.map (⟨·, event⟩) := by
          apply List.prefix_of_prefix_length_le h round
          rw [List.length_append, List.length_singleton, List.length_map]
          omega
        obtain ⟨after, split⟩ := inside
        rw [List.append_assoc] at split
        obtain ⟨earlier, others, rfl, rfl, turn⟩ := List.map_eq_append_iff.1 split.symm
        obtain ⟨outlet, later, rfl, rfl, -⟩ := List.map_eq_cons_iff.1 turn
        exact ⟨0, earlier, later, rfl, rfl, rfl⟩
      · have passed : outlets.map (⟨·, event⟩) <+: before := by
          apply List.prefix_of_prefix_length_le round ((List.prefix_append _ _).trans h)
          rw [List.length_map]
          omega
        obtain ⟨next, rfl⟩ := passed
        rw [List.append_assoc, List.prefix_append_right_inj] at h
        obtain ⟨k, earlier, later, event?, turn, rfl⟩ := ih h
        refine ⟨k + 1, earlier, later, event?, turn, ?_⟩
        rw [List.take_succ_cons, rounds_cons, List.append_assoc]

end Delivery

/-- The observers of all runs, which belong to an engine, and the extra sinks of single runs. -/
structure Observers where
  engine : Engine
  extras : Nat → Sink

namespace Observers

/-- The sink at an outlet. -/
def sink (observers : Observers) : Outlet → Sink
  | .tracer => .tracer observers.engine.tracer
  | .broadcast => .broadcast observers.engine.broadcast
  | .extra number => observers.extras number

/-- Make one delivery. -/
def take (observers : Observers) (delivery : Delivery) : Observers :=
  let engine := observers.engine
  match delivery.outlet with
  | .tracer =>
    { observers with engine := { engine with tracer := engine.tracer.record delivery.event } }
  | .broadcast => { observers with engine := engine.announce delivery.event }
  | .extra number =>
    { observers with
      extras := Function.update observers.extras number
        ((observers.extras number).take delivery.event) }

/-- Make deliveries one after the other. -/
def takeAll (observers : Observers) (deliveries : List Delivery) : Observers :=
  deliveries.foldl take observers

variable (observers : Observers)

theorem takeAll_append (before after : List Delivery) :
    observers.takeAll (before ++ after) = (observers.takeAll before).takeAll after :=
  List.foldl_append

/-- A delivery concerns the sink at its outlet and no other. -/
theorem sink_take (outlet other : Outlet) (event : Event) :
    (observers.take ⟨outlet, event⟩).sink other =
      if outlet = other then (observers.sink other).take event else observers.sink other := by
  split
  · rename_i same
    subst same
    cases outlet with
    | tracer => rfl
    | broadcast => rfl
    | extra number => exact Function.update_self number _ _
  · rename_i differs
    cases outlet with
    | tracer =>
        cases other with
        | tracer => exact absurd rfl differs
        | broadcast => rfl
        | extra number => rfl
    | broadcast =>
        cases other with
        | tracer => rfl
        | broadcast => exact absurd rfl differs
        | extra number => rfl
    | extra number =>
        cases other with
        | tracer => rfl
        | broadcast => rfl
        | extra another =>
            refine Function.update_of_ne ?_ _ _
            rintro rfl
            exact differs rfl

/-- What the sink at an outlet is like depends on the events that reached it and on nothing else. -/
theorem sink_takeAll (outlet : Outlet) (deliveries : List Delivery) :
    (observers.takeAll deliveries).sink outlet =
      (Delivery.received outlet deliveries).foldl Sink.take (observers.sink outlet) := by
  induction deliveries generalizing observers with
  | nil => rfl
  | cons delivery rest ih =>
      obtain ⟨other, event⟩ := delivery
      show ((observers.take ⟨other, event⟩).takeAll rest).sink outlet = _
      rw [ih, sink_take]
      by_cases same : other = outlet
      · simp [Delivery.received, same]
      · simp [Delivery.received, same]

theorem tracer_takeAll (deliveries : List Delivery) :
    (observers.takeAll deliveries).engine.tracer =
      observers.engine.tracer.recordAll (Delivery.received .tracer deliveries) := by
  have tracer := observers.sink_takeAll .tracer deliveries
  rw [sink, sink, Sink.foldl_take_tracer] at tracer
  exact Sink.tracer.inj tracer

end Observers

namespace Hub

variable {hub : Hub} {place : Outlet → Nat} {observers : Observers} {outlets turn : List Outlet}
variable {number : Nat} {event : Event}

/-- Whether a hub has the sinks at some outlets in the places of these outlets. -/
def Carries (hub : Hub) (place : Outlet → Nat) (observers : Observers) (outlets : List Outlet) :
    Prop :=
  ∀ outlet ∈ outlets, hub.station? (place outlet) = some (.sink (observers.sink outlet))

theorem station?_put (number other : Nat) (sink : Sink) {station : Station}
    (there : hub.station? number = some station) :
    (hub.put number sink).station? other =
      if number = other then some (.sink sink) else hub.station? other := by
  have bound : number < hub.stations.length := (List.getElem?_eq_some_iff.1 there).1
  simp only [put, station?, List.getElem?_set, bound, if_true]

/-- A sink that is handed an event takes it, and all others stay as they are. -/
theorem Carries.emitTo (carries : hub.Carries place observers outlets)
    (apart : Function.Injective place) {outlet : Outlet} (listed : outlet ∈ outlets)
    (fuel : Nat) :
    (emitTo event (fuel + 1) (place outlet) hub).Carries place (observers.take ⟨outlet, event⟩)
      outlets := by
  have there := carries outlet listed
  intro other hother
  rw [Hub.emitTo, there]
  simp only []
  rw [station?_put _ _ _ there, observers.sink_take]
  by_cases same : outlet = other
  · subst same
    rw [if_pos rfl, if_pos rfl]
  · rw [if_neg (apart.ne same), if_neg same]
    exact carries other hother

/-- Fan-outs have no state that an event could change. -/
theorem station?_emitTo {members : List Nat} (fuel handed : Nat)
    (set : hub.station? number = some (.fanOut members)) :
    (emitTo event fuel handed hub).station? number = some (.fanOut members) := by
  induction fuel generalizing handed hub with
  | zero => exact set
  | succ fuel ih =>
      unfold Hub.emitTo
      split
      · rename_i sink there
        rw [station?_put _ _ _ there]
        by_cases same : handed = number
        · subst same
          exact absurd (set.symm.trans there) (by simp)
        · rwa [if_neg same]
      · rename_i others there
        clear there
        induction others generalizing hub with
        | nil => exact set
        | cons first rest later => exact later (ih first set)
      · exact set

/-- Sinks that are handed an event in turn take it as in a round of deliveries. -/
theorem Carries.foldl_emitTo (carries : hub.Carries place observers outlets)
    (apart : Function.Injective place) (listed : turn ⊆ outlets) (fuel : Nat) :
    ((turn.map place).foldl (fun hub member => Hub.emitTo event (fuel + 1) member hub)
      hub).Carries place (observers.takeAll (turn.map (⟨·, event⟩))) outlets := by
  induction turn generalizing hub observers with
  | nil => exact carries
  | cons first rest ih =>
      obtain ⟨one, others⟩ := List.cons_subset.1 listed
      exact ih (carries.emitTo apart one fuel) others

theorem sinkNames_emitTo (fuel handed : Nat) (hub : Hub) :
    (emitTo event fuel handed hub).sinkNames = hub.sinkNames := by
  induction fuel generalizing handed hub with
  | zero => rfl
  | succ fuel ih =>
      unfold Hub.emitTo
      split
      · rfl
      · rename_i members there
        clear there
        induction members generalizing hub with
        | nil => rfl
        | cons first rest later => exact (later _).trans (ih first hub)
      · rfl

/-- Whether a hub has a fan-out with a name to the sinks at some outlets. -/
structure FansOut (hub : Hub) (name : String) (place : Outlet → Nat) (observers : Observers)
    (outlets : List Outlet) : Prop where
  fanOut : ∃ number, hub.sinkNames.find? name = some number ∧
    hub.station? number = some (.fanOut (outlets.map place))
  carries : hub.Carries place observers outlets

/-- A hub gets such a fan-out when it is added to the sinks. -/
theorem Carries.fansOut {members : List String} (carries : hub.Carries place observers outlets)
    (found : members.filterMap hub.sinkNames.find? = outlets.map place) (name : String) :
    (hub.addFanOut name members).1.FansOut name place observers outlets := by
  refine ⟨⟨hub.stations.length, ?_, ?_⟩, fun outlet listed => ?_⟩
  · exact (Dict.find?_insert _ name name _).trans (if_pos rfl)
  · rw [← found]
    exact List.getElem?_concat_length
  · have there := carries outlet listed
    have bound : place outlet < hub.stations.length := (List.getElem?_eq_some_iff.1 there).1
    exact (List.getElem?_append_left bound).trans there

/-- An event that is emitted to a fan-out makes one round of deliveries to its members. -/
theorem FansOut.emit {name : String} (fansOut : hub.FansOut name place observers outlets)
    (apart : Function.Injective place) (event : Event) :
    (hub.emit name event).FansOut name place (observers.takeAll (outlets.map (⟨·, event⟩)))
      outlets := by
  obtain ⟨⟨number, named, set⟩, carries⟩ := fansOut
  have emitted : hub.emit name event = emitTo event hub.stations.length number hub := by
    rw [Hub.emit, named]
  rw [emitted]
  refine ⟨⟨number, ?_, station?_emitTo _ _ set⟩, ?_⟩
  · rw [sinkNames_emitTo, named]
  · cases outlets with
    | nil => exact fun outlet unlisted => absurd unlisted List.not_mem_nil
    | cons first rest =>
        -- The fan-out and its first member are two stations, so the fuel suffices for both.
        have member := carries first List.mem_cons_self
        have differ : place first ≠ number := by
          intro same
          rw [same, set] at member
          exact absurd (Option.some.inj member) (by simp)
        have one : place first < hub.stations.length := (List.getElem?_eq_some_iff.1 member).1
        have other : number < hub.stations.length := (List.getElem?_eq_some_iff.1 set).1
        obtain ⟨fuel, enough⟩ := Nat.exists_eq_add_of_le' (show 2 ≤ hub.stations.length by omega)
        rw [enough, Hub.emitTo, set]
        exact carries.foldl_emitTo apart (List.Subset.refl _) fuel

/-- Events that are emitted to a fan-out, one after the other, make the rounds of deliveries to its
members. -/
theorem FansOut.emitAll {name : String} (fansOut : hub.FansOut name place observers outlets)
    (apart : Function.Injective place) (events : List Event) :
    (events.foldl (fun hub event => hub.emit name event) hub).FansOut name place
      (observers.takeAll (Delivery.rounds outlets events)) outlets := by
  induction events generalizing hub observers with
  | nil => exact fansOut
  | cons event rest ih =>
      rw [Delivery.rounds_cons, observers.takeAll_append]
      exact ih (fansOut.emit apart event)

example :
    let hub := (Hub.empty.addTracer "tracer" 2).addChannel "watcher"
    let event : Event := ⟨default, .nil, .runStarted "canvas" Dict.empty 1⟩
    ((hub.addFanOut "all" ["tracer", "watcher"]).1.emit "all" event).named? "watcher" =
      some (.channel ⟨[event], true⟩) := rfl

end Hub

end Canvas
