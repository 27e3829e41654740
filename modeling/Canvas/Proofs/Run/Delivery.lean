import Canvas.Proofs.Run.Rounds
import Canvas.Proofs.Run.Succession

/-!
# Events on their way to the observers

A run hands each event to its outlets one after the other: to the tracer, to the broadcast, and to
an extra sink if it has one. Only then does it produce its next event. Between any two of these
deliveries other runs may make theirs.

The deliveries of one run still come in rounds, one round for an event. So an outlet that gets an
event has got all earlier ones before, and the tracer has this one already, for it comes first in
the round. It holds then what the run itself held when it produced the event. Other runs can push
the run out of the tracer but not change what it answers about it.
-/

namespace Canvas

/-- A run together with an extra sink that is handed the events of this run last, if there is one. -/
structure WatchedRun where
  commission : Commission
  watcher : Option Nat

namespace WatchedRun

/-- The outlets of a run in their order. -/
def outlets (run : WatchedRun) : List Outlet :=
  .tracer :: .broadcast :: run.watcher.toList.map .extra

/-- The deliveries of a run: each event goes to all outlets before the next one is produced. -/
def deliveries (run : WatchedRun) : List Delivery :=
  Delivery.rounds run.outlets run.commission.events

variable (run : WatchedRun)

theorem nodup_outlets : run.outlets.Nodup := by
  obtain ⟨commission, watcher⟩ := run
  cases watcher with
  | none => simp [outlets]
  | some number => simp [outlets]

theorem runId_of_mem_deliveries {delivery : Delivery} (h : delivery ∈ run.deliveries) :
    delivery.event.runId = run.commission.runId := by
  obtain ⟨event, hevent, round⟩ := List.mem_flatMap.1 h
  obtain ⟨outlet, -, rfl⟩ := List.mem_map.1 round
  exact run.commission.runId_of_mem_events hevent

theorem tracer_mem_of_turn {outlet : Outlet} {earlier later : List Outlet}
    (turn : run.outlets = earlier ++ outlet :: later) : .tracer ∈ earlier ++ [outlet] := by
  cases earlier with
  | nil =>
      rw [← (List.cons.inj turn).1]
      exact List.mem_cons_self
  | cons first rest =>
      rw [← (List.cons.inj turn).1]
      exact List.mem_cons_self

/-- When an outlet other than the tracer gets event number `k`, it has got the events before this
one, and the tracer, which came first in the round, has got this one, too. -/
theorem exists_received {before : List Delivery} {outlet : Outlet} {event : Event}
    (h : before ++ [⟨outlet, event⟩] <+: run.deliveries) (other : outlet ≠ .tracer) :
    ∃ k, run.commission.events[k]? = some event ∧
      Delivery.received outlet before = run.commission.events.take k ∧
      Delivery.received .tracer before = run.commission.events.take (k + 1) := by
  obtain ⟨k, earlier, later, event?, turn, rfl⟩ := Delivery.exists_round h
  have unreached : outlet ∉ earlier := by
    intro again
    have distinct : (earlier ++ outlet :: later).Nodup := turn ▸ run.nodup_outlets
    exact (List.nodup_append.1 distinct).2.2 outlet again outlet List.mem_cons_self rfl
  have reached : .tracer ∈ earlier := by
    rcases List.mem_append.1 (run.tracer_mem_of_turn turn) with reached | same
    · exact reached
    · exact absurd (List.mem_singleton.1 same).symm other
  have listed : outlet ∈ run.outlets := turn ▸ List.mem_append_right earlier List.mem_cons_self
  refine ⟨k, event?, ?_, ?_⟩
  · rw [Delivery.received_in_round run.nodup_outlets turn event? listed, if_neg unreached]
  · rw [Delivery.received_in_round run.nodup_outlets turn event? List.mem_cons_self,
      if_pos reached]

/-- At any moment some events were produced. An outlet has got all of these, or all but the last if
it is not the tracer. -/
theorem exists_produced {made : List Delivery} (h : made <+: run.deliveries) :
    ∃ n, ∀ outlet ∈ run.outlets,
      Delivery.received outlet made = run.commission.events.take n ∨
      outlet ≠ .tracer ∧ Delivery.received outlet made = run.commission.events.take (n - 1) := by
  rcases List.eq_nil_or_concat made with rfl | ⟨before, ⟨last, event⟩, rfl⟩
  · exact ⟨0, fun _ _ => .inl rfl⟩
  · rw [List.concat_eq_append] at h ⊢
    obtain ⟨k, earlier, later, event?, turn, rfl⟩ := Delivery.exists_round h
    refine ⟨k + 1, fun outlet listed => ?_⟩
    have whole : run.outlets = (earlier ++ [last]) ++ later := by
      rw [turn, List.append_assoc, List.singleton_append]
    have gotten := Delivery.received_in_round run.nodup_outlets whole event? listed
    rw [List.map_append, ← List.append_assoc] at gotten
    by_cases reached : outlet ∈ earlier ++ [last]
    · left
      rw [if_pos reached] at gotten
      exact gotten
    · right
      rw [if_neg reached] at gotten
      refine ⟨?_, gotten⟩
      rintro rfl
      exact reached (run.tracer_mem_of_turn turn)

end WatchedRun

namespace Observers

variable (observers : Observers)

/-- The observers after an engine executed a run with no other run beside it. -/
def execute (run : WatchedRun) : Observers :=
  let ⟨_, draws, canvasId, graph, input⟩ := run.commission
  match run.watcher with
  | none => { observers with engine := (observers.engine.run draws canvasId graph input).2 }
  | some number =>
    let executed := observers.engine.runWithSink Sink.take (observers.extras number) draws canvasId
      graph input
    ⟨executed.2.1, Function.update observers.extras number executed.2.2⟩

/-- The deliveries of a run without an extra sink are what an engine does with its events. -/
theorem takeAll_rounds_publish (events : List Event) :
    observers.takeAll (Delivery.rounds [.tracer, .broadcast] events) =
      { observers with engine := events.foldl Engine.publish observers.engine } := by
  induction events generalizing observers with
  | nil => rfl
  | cons event rest ih =>
      exact ih { observers with engine := observers.engine.publish event }

/-- With an extra sink every event goes to this, too, once the engine is done with it. -/
theorem takeAll_rounds_extra (number : Nat) (events : List Event) (engine : Engine) (sink : Sink) :
    let after := events.foldl
      (fun observers event => (observers.1.publish event, observers.2.take event)) (engine, sink)
    takeAll ⟨engine, Function.update observers.extras number sink⟩
        (Delivery.rounds [.tracer, .broadcast, .extra number] events) =
      ⟨after.1, Function.update observers.extras number after.2⟩ := by
  induction events generalizing engine sink with
  | nil => rfl
  | cons event rest ih =>
      have round : takeAll ⟨engine, Function.update observers.extras number sink⟩
          ([.tracer, .broadcast, .extra number].map (⟨·, event⟩)) =
            ⟨engine.publish event, Function.update observers.extras number (sink.take event)⟩ := by
        simp [takeAll, take, Function.update_self, Function.update_idem, Engine.publish,
          Engine.announce]
      rw [Delivery.rounds_cons, takeAll_append, round]
      exact ih (engine.publish event) (sink.take event)

/-- An engine that executes a run makes the deliveries of the run, with no others between them. -/
theorem execute_eq_takeAll {run : WatchedRun}
    (own : run.commission.orchestrator = observers.engine.orchestrator) :
    observers.execute run = observers.takeAll run.deliveries := by
  obtain ⟨⟨_, draws, canvasId, graph, input⟩, watcher⟩ := run
  subst own
  cases watcher with
  | none => exact (observers.takeAll_rounds_publish _).symm
  | some number =>
      have same := Function.update_eq_self number observers.extras
      have deliveries := observers.takeAll_rounds_extra number
        (observers.engine.orchestrator.execute draws canvasId graph input).events observers.engine
        (observers.extras number)
      rw [same] at deliveries
      exact deliveries.symm

end Observers

section Runs

open Delivery (received)

variable {ι : Type} [DecidableEq ι] {runs : ι → WatchedRun} {schedule : List Delivery}

/-- The deliveries of a run come in their order, as far as they have come. -/
theorem filter_isPrefix_deliveries
    (distinct : Function.Injective fun i => (runs i).commission.runId)
    (arrived : Interleaved (fun i => (runs i).deliveries) schedule) (i : ι) :
    schedule.filter (·.event.runId = (runs i).commission.runId) <+: (runs i).deliveries :=
  arrived.filter_isPrefix distinct
    (fun j _ hdelivery => (runs j).runId_of_mem_deliveries hdelivery) i

/-- The events that reach an outlet are an interleaving of those that its runs hand to it. -/
theorem Interleaved.received (arrived : Interleaved (fun i => (runs i).deliveries) schedule)
    (outlet : Outlet) :
    Interleaved (fun i => if outlet ∈ (runs i).outlets then (runs i).commission.events else [])
      (Delivery.received outlet schedule) := by
  have streams := arrived.filterMap fun delivery =>
    if delivery.outlet = outlet then some delivery.event else none
  have events : ∀ i, Delivery.received outlet (runs i).deliveries =
      if outlet ∈ (runs i).outlets then (runs i).commission.events else [] :=
    fun i => Delivery.received_rounds (runs i).nodup_outlets outlet _
  rwa [← funext events]

/-- The runs that the tracer records start once each. -/
theorem nodup_startedIds_of_delivered
    (distinct : Function.Injective fun i => (runs i).commission.runId)
    (arrived : Interleaved (fun i => (runs i).deliveries) schedule) :
    (Tracer.startedIds (received .tracer schedule)).Nodup := by
  have events := arrived.received .tracer
  simp only [WatchedRun.outlets, List.mem_cons_self, if_true] at events
  exact nodup_startedIds_of_interleaved distinct events

/-- How things are when an outlet other than the tracer gets event number `k` of a run: it has got
the events before this one, and the tracer has recorded these and this one. The tracer holds the run
exactly if the run is among the latest that started. If so, it shows the run as the run itself held
it when it produced the event, and the steps likewise if their ids differ; and all its answers about
the run are those of a tracer, with whatever room, that recorded these events only. -/
structure Recorded (capacity : Nat) (tracer : Tracer) (before : List Delivery) (run : Commission)
    (outlet : Outlet) (event : Event) (k : Nat) : Prop where
  produced : run.events[k]? = some event
  earlier : (received outlet before).filter (·.runId = run.runId) = run.events.take k
  recorded : (received .tracer before).filter (·.runId = run.runId) = run.events.take (k + 1)
  held : (tracer.run? run.runId).isSome ↔
    run.runId ∈ (Tracer.startedIds (received .tracer before)).rtake (max capacity 1)
  shown : (tracer.run? run.runId).isSome → ∃ held,
    run.execution.emissions[k]? = some (event, held) ∧
    (tracer.run? run.runId).map Run.untimed = some held.run.untimed ∧
    (run.DistinctSteps → tracer.Shows run.runId held)
  answers : (tracer.run? run.runId).isSome → ∀ room,
    tracer.AgreesOn ((Tracer.ofCapacity room).recordAll (run.events.take (k + 1))) run.runId

/-- An outlet other than the tracer that gets an event finds it recorded. -/
theorem exists_recorded {observers : Observers} {capacity : Nat} {before after : List Delivery}
    {outlet : Outlet} {event : Event} (new : observers.engine.tracer = .ofCapacity capacity)
    (distinct : Function.Injective fun i => (runs i).commission.runId)
    (arrived : Interleaved (fun i => (runs i).deliveries) (before ++ ⟨outlet, event⟩ :: after))
    {i : ι} (other : outlet ≠ .tracer) (own : event.runId = (runs i).commission.runId) :
    ∃ k, Recorded capacity (observers.takeAll before).engine.tracer before (runs i).commission
      outlet event k := by
  have part := filter_isPrefix_deliveries distinct arrived i
  rw [List.filter_append, List.filter_cons_of_pos (by simpa using own), ← List.singleton_append,
    ← List.append_assoc] at part
  obtain ⟨k, event?, earlier, recorded⟩ :=
    (runs i).exists_received ((List.prefix_append _ _).trans part) other
  rw [← Delivery.received_filter] at earlier recorded
  have once : (Tracer.startedIds (received .tracer before)).Nodup := by
    have all := nodup_startedIds_of_delivered distinct arrived
    rw [Delivery.received_append, Tracer.startedIds_append] at all
    exact (List.nodup_append.1 all).1
  have consistent := (Tracer.consistent_ofCapacity capacity).recordAll (received .tracer before)
  rw [observers.tracer_takeAll, new]
  -- If the run is held, it is as if its own events had been recorded alone.
  have alone (held : (((Tracer.ofCapacity capacity).recordAll (received .tracer before)).run?
      (runs i).commission.runId).isSome) (room : Nat) :
      ((Tracer.ofCapacity capacity).recordAll (received .tracer before)).find?
          (runs i).commission.runId =
        ((Tracer.ofCapacity room).recordAll ((runs i).commission.events.take (k + 1))).find?
          (runs i).commission.runId := by
    rw [← recorded]
    exact Tracer.find?_recordAll_eq_alone once (Tracer.isSome_run?_iff.1 held) room
  refine ⟨k, event?, earlier, recorded, ?_, fun held => ?_, fun held room => ?_⟩
  · rw [Tracer.isSome_run?_iff, consistent.find?_ne_none_iff,
      Tracer.admitted_recordAll_of_once once]
  · obtain ⟨report, emitted⟩ := Execution.exists_emission event?
    obtain ⟨traced, found, run, same⟩ :=
      Orchestrator.find?_recordAll_execute (Tracer.consistent_ofCapacity 1) rfl rfl emitted
    have found := (alone held 1).trans found
    refine ⟨report, emitted, ?_, fun steps => Tracer.shows_of_find? ?_⟩
    · rw [Tracer.run?, found, Option.map_some, Option.map_some, run]
    · rw [found, same steps]
  · exact Tracer.agreesOn_of_find? (alone held room)

/-- An outlet gets nothing of a run to which it does not belong. -/
theorem received_eq_nil (distinct : Function.Injective fun i => (runs i).commission.runId)
    (arrived : Interleaved (fun i => (runs i).deliveries) schedule) {i : ι} {outlet : Outlet}
    (unlisted : outlet ∉ (runs i).outlets) :
    (received outlet schedule).filter (·.runId = (runs i).commission.runId) = [] := by
  have part := filter_isPrefix_deliveries distinct arrived i
  have gotten : (received outlet schedule).filter (·.runId = (runs i).commission.runId) <+:
      received outlet (runs i).deliveries := by
    rw [Delivery.received_filter]
    exact part.filterMap _
  rw [WatchedRun.deliveries, Delivery.received_rounds (runs i).nodup_outlets,
    if_neg unlisted] at gotten
  exact List.prefix_nil.1 gotten

/-- However the deliveries of runs with different ids are interleaved, an outlet that gets an event
finds it recorded. At any moment every outlet of a run has got the events that the run produced, in
order and each once, but for the latest if its turn has not come; and all events once the deliveries
of the run are made. Other outlets get none of them. The sink at an outlet takes just what the
outlet gets.

The deliveries of a run are those that an engine makes when it executes the run, and those that a
fan-out to the sinks at its outlets makes of its events. -/
theorem delivered_when_recorded {observers : Observers} {capacity : Nat}
    (new : observers.engine.tracer = .ofCapacity capacity)
    (distinct : Function.Injective fun i => (runs i).commission.runId)
    (arrived : Interleaved (fun i => (runs i).deliveries) schedule) (i : ι) :
    let run := (runs i).commission
    (∀ before outlet event after, schedule = before ++ ⟨outlet, event⟩ :: after →
      outlet ≠ .tracer → event.runId = run.runId →
      ∃ k, Recorded capacity (observers.takeAll before).engine.tracer before run outlet event k) ∧
    (∃ n, ∀ outlet ∈ (runs i).outlets,
      (received outlet schedule).filter (·.runId = run.runId) = run.events.take n ∨
      outlet ≠ .tracer ∧
        (received outlet schedule).filter (·.runId = run.runId) = run.events.take (n - 1)) ∧
    (schedule.filter (·.event.runId = run.runId) = (runs i).deliveries →
      ∀ outlet ∈ (runs i).outlets,
        (received outlet schedule).filter (·.runId = run.runId) = run.events) ∧
    (∀ outlet ∉ (runs i).outlets,
      (received outlet schedule).filter (·.runId = run.runId) = []) ∧
    (∀ outlet earlier, (observers.sink outlet).Took earlier →
      ((observers.takeAll schedule).sink outlet).Took (earlier ++ received outlet schedule)) ∧
    (∀ alone : Observers, run.orchestrator = alone.engine.orchestrator →
      alone.execute (runs i) = alone.takeAll (runs i).deliveries) ∧
    ∀ (hub : Hub) (name : String) (place : Outlet → Nat) (alone : Observers),
      Function.Injective place → hub.FansOut name place alone (runs i).outlets →
      (run.events.foldl (fun hub event => hub.emit name event) hub).FansOut name place
        (alone.takeAll (runs i).deliveries) (runs i).outlets := by
  intro run
  refine ⟨?_, ?_, ?_, ?_, ?_, ?_, ?_⟩
  · rintro before outlet event after rfl other own
    exact exists_recorded new distinct arrived other own
  · have part := filter_isPrefix_deliveries distinct arrived i
    obtain ⟨n, gotten⟩ := (runs i).exists_produced part
    refine ⟨n, fun outlet listed => ?_⟩
    rw [Delivery.received_filter]
    exact gotten outlet listed
  · intro made outlet listed
    rw [Delivery.received_filter, made]
    exact (Delivery.received_rounds (runs i).nodup_outlets outlet _).trans (if_pos listed)
  · intro outlet unlisted
    exact received_eq_nil distinct arrived unlisted
  · intro outlet earlier took
    rw [observers.sink_takeAll]
    exact took.takeAll (received outlet schedule)
  · exact fun alone own => alone.execute_eq_takeAll own
  · exact fun hub name place alone apart fansOut => fansOut.emitAll apart run.events

end Runs

/-- The first run is watched. A second run takes place as a whole between two deliveries of the same
event of the first. The subscribers who then get this event can ask about the first two events, and
find the first step begun. In the end the receiver of the extra sink finds all events of the first
run, and so does a subscriber, among those of the second. -/
theorem recorded_around_second_run :
    let graph : Graph :=
      ⟨[.ofId "question" .query, .ofId "answer" .generate], [⟨"e1", "question", "answer"⟩]⟩
    let runs (second : Bool) : WatchedRun :=
      ⟨⟨⟨.echoing, .standard⟩, ⟨⟨if second then 2 else 1⟩, fun n => ⟨n⟩, fun _ => default⟩,
        "canvas", graph, Dict.empty⟩, if second then none else some 0⟩
    let first := (runs false).deliveries
    let before := first.take 4 ++ (runs true).deliveries
    let schedule := before ++ first.drop 4
    let observers : Observers :=
      ⟨⟨⟨.echoing, .standard⟩, .ofCapacity 2, .ofCapacity 16⟩, fun _ => .channel .empty⟩
    let tracer := (observers.takeAll before).engine.tracer
    let later := observers.takeAll schedule
    let run := (runs false).commission
    run.events.length = 6 ∧ (tracer.run? ⟨1⟩).isSome ∧
      tracer.AgreesOn ((Tracer.ofCapacity 1).recordAll (run.events.take 2)) ⟨1⟩ ∧
      (∃ event held, run.execution.emissions[1]? = some (event, held) ∧ tracer.Shows ⟨1⟩ held) ∧
      (∃ waiting : List Event, (later.sink (.extra 0)).Took waiting ∧
        waiting.filter (·.runId = ⟨1⟩) = run.events) ∧
      ∃ sent : List Event, sent.filter (·.runId = ⟨1⟩) = run.events ∧
        ∀ n, (later.engine.broadcast.receive n).1 = sent[n]?.elim .empty .item := by
  intro graph runs first before schedule observers tracer later run
  have lengths : run.events.length = 6 ∧
      ((Delivery.received .tracer before).filter (·.runId = ⟨1⟩)).length = 2 ∧
      (Delivery.received .broadcast schedule).length = 12 := by decide +kernel
  have steps : (run.report.steps.map (·.id)).Nodup := by decide +kernel
  have held : (tracer.run? ⟨1⟩).isSome := by decide +kernel
  have distinct : Function.Injective fun i => (runs i).commission.runId := by
    have differ : ∀ i j, (runs i).commission.runId = (runs j).commission.runId → i = j := by decide
    exact fun i j => differ i j
  have arrives (streams : Bool → List Delivery) : Interleaved streams
      ((streams false).take 4 ++ (streams true ++ (streams false).drop 4)) := by
    refine .stretch (i := false) (List.take_append_drop 4 _).symm ?_
    refine .stretch (i := true) (show _ = streams true ++ [] by simp) ?_
    rw [← List.append_nil ((streams false).drop 4)]
    exact .stretch (i := false) (show _ = (streams false).drop 4 ++ [] by simp) .stopped
  have arrived := arrives fun i => (runs i).deliveries
  rw [← List.append_assoc] at arrived
  change Interleaved _ schedule at arrived
  have turn : (first[4]?.map (·.outlet)) = some .broadcast := by decide +kernel
  have made : (schedule.filter (·.event.runId = ⟨1⟩)).length = first.length := by decide +kernel
  have all : schedule.filter (·.event.runId = ⟨1⟩) <+: first :=
    filter_isPrefix_deliveries distinct arrived false
  obtain ⟨⟨_, event⟩, hdelivery, rfl⟩ := Option.map_eq_some_iff.1 turn
  have own := (runs false).runId_of_mem_deliveries (List.mem_of_getElem? hdelivery)
  have split : schedule = before ++ ⟨.broadcast, event⟩ :: first.drop 5 := by
    rw [← List.singleton_append, ← Option.toList_some, ← hdelivery,
      ← List.drop_eq_getElem?_toList_append]
  obtain ⟨recorded, -, complete, -, taken, -⟩ := delivered_when_recorded
    (show observers.engine.tracer = .ofCapacity 2 from rfl) distinct arrived false
  obtain ⟨k, asked⟩ := recorded before .broadcast event _ split (by decide) own
  obtain rfl : k = 1 := by
    have count : 2 = min (k + 1) 6 := by
      rw [← lengths.1, ← List.length_take, ← lengths.2.1]
      exact congrArg List.length asked.recorded
    clear * - count
    omega
  obtain ⟨report, emitted, -, shown⟩ := asked.shown held
  have whole := complete (all.eq_of_length made)
  have waiting := taken (.extra 0) [] .channel
  have sent := (taken .broadcast [] (.broadcast (Broadcast.sent_ofCapacity 16))).sent
  rw [List.nil_append] at waiting sent
  refine ⟨lengths.1, held, asked.answers held 1, ⟨event, report, emitted, shown steps⟩,
    ⟨_, waiting, whole (.extra 0) (by decide)⟩,
    ⟨_, whole .broadcast (by decide), fun n => ?_⟩⟩
  have kept : ¬ n + later.engine.broadcast.capacity <
      (Delivery.received .broadcast schedule).length := by
    rw [lengths.2.2]
    exact Nat.not_lt.2 (Nat.le_add_left_of_le (by decide +kernel))
  rw [sent.receive_eq, if_neg kept]

end Canvas
