import Canvas.Proofs.Run.Dispatch
import Canvas.Proofs.Run.EventStream
import Canvas.Proofs.Stream.Separation
import Mathlib.Logic.Function.Basic

/-!
# Concurrent runs in one tracer

Runs share no state, so all that concurrency can do is to interleave their events. Each run keeps
the order of its own, starts once, and may not be over yet. Whatever the interleaving, a tracer that
records it holds a run exactly while few enough others have started after it; and as long as it
does, its answers about the run are those of a tracer that records nothing else.
-/

namespace Canvas

/-- What arrives if streams are merged, each in its own order. None need have arrived completely. -/
inductive Interleaved {ι α : Type} [DecidableEq ι] : (ι → List α) → List α → Prop
  | stopped {streams : ι → List α} : Interleaved streams []
  | next {streams : ι → List α} {i : ι} {item : α} {rest merged : List α}
      (head : streams i = item :: rest)
      (tail : Interleaved (Function.update streams i rest) merged) :
      Interleaved streams (item :: merged)

namespace Interleaved

variable {ι α κ : Type} [DecidableEq ι] [DecidableEq κ] {streams : ι → List α} {merged : List α}

theorem exists_mem (h : Interleaved streams merged) {item : α} (hitem : item ∈ merged) :
    ∃ i, item ∈ streams i := by
  induction h with
  | stopped => exact absurd hitem List.not_mem_nil
  | @next streams i first rest merged head tail ih =>
      rcases List.mem_cons.1 hitem with rfl | hitem
      · exact ⟨i, head ▸ List.mem_cons_self⟩
      · obtain ⟨j, hj⟩ := ih hitem
        by_cases same : j = i
        · subst same
          rw [Function.update_self] at hj
          exact ⟨j, head ▸ List.mem_cons_of_mem first hj⟩
        · rw [Function.update_of_ne same] at hj
          exact ⟨j, hj⟩

/-- A stretch of one stream may arrive at once. -/
theorem stretch {i : ι} {part rest : List α} (head : streams i = part ++ rest)
    (tail : Interleaved (Function.update streams i rest) merged) :
    Interleaved streams (part ++ merged) := by
  induction part generalizing streams with
  | nil =>
      rwa [← (show streams i = rest from head), Function.update_eq_self] at tail
  | cons item part ih =>
      refine .next head (ih (Function.update_self i _ streams) ?_)
      rwa [Function.update_idem]

/-- If items tell from which stream they come, a stream can be picked out of the others again, as
far as it has arrived. -/
theorem filter_isPrefix (h : Interleaved streams merged) {key : α → κ} {keys : ι → κ}
    (distinct : Function.Injective keys) (own : ∀ i, ∀ item ∈ streams i, key item = keys i)
    (i : ι) : merged.filter (key · = keys i) <+: streams i := by
  induction h with
  | stopped => exact List.nil_prefix
  | @next streams j first rest merged head tail ih =>
      have left : ∀ k, Function.update streams j rest k ⊆ streams k := by
        intro k
        by_cases same : k = j
        · subst same
          rw [Function.update_self, head]
          exact List.subset_cons_self first rest
        · rw [Function.update_of_ne same]
          exact List.Subset.refl _
      have later := ih fun k item hitem => own k item (left k hitem)
      have origin : key first = keys j := own j first (head ▸ List.mem_cons_self)
      by_cases same : i = j
      · subst same
        rw [Function.update_self] at later
        rw [List.filter_cons_of_pos (by simpa using origin), head]
        exact List.cons_prefix_cons.2 ⟨rfl, later⟩
      · rw [Function.update_of_ne same] at later
        rwa [List.filter_cons_of_neg (by simpa [origin] using distinct.ne (Ne.symm same))]

/-- What is picked out of every stream arrives interleaved, too. -/
theorem filterMap {β : Type} (h : Interleaved streams merged) (pick : α → Option β) :
    Interleaved (fun i => (streams i).filterMap pick) (merged.filterMap pick) := by
  induction h with
  | stopped => exact .stopped
  | @next streams i first rest merged head tail ih =>
      have left : (fun j => (Function.update streams i rest j).filterMap pick) =
          Function.update (fun j => (streams j).filterMap pick) i (rest.filterMap pick) :=
        Function.comp_update (List.filterMap pick) streams i rest
      rw [left] at ih
      cases picked : pick first with
      | none =>
          have same : (fun j => (streams j).filterMap pick) i = rest.filterMap pick := by
            show (streams i).filterMap pick = _
            rw [head, List.filterMap_cons_none picked]
          rw [List.filterMap_cons_none picked]
          rwa [← same, Function.update_eq_self] at ih
      | some item =>
          rw [List.filterMap_cons_some picked]
          refine .next (i := i) ?_ ih
          rw [head, List.filterMap_cons_some picked]

end Interleaved

namespace Orchestrator

variable {orchestrator : Orchestrator} {draws : Draws} {run : Run}

/-- No event of the steps starts a run, nor does the one that ends the run. -/
theorem not_startsRun_executeSteps (remaining : List PlanStep) (index : Nat)
    (steps : List StepRecord) (outputs : Outputs) (elapsedMs : Nat) (execution : Execution)
    (h : orchestrator.executeSteps draws run remaining index steps outputs elapsedMs = execution) :
    ∀ event ∈ execution.events, ¬ event.payload.StartsRun := by
  induction remaining generalizing index steps outputs elapsedMs execution with
  | nil =>
      subst h
      rw [events_executeSteps_nil]
      simp [Payload.StartsRun]
  | cons step rest ih =>
      subst h
      rcases hdispatch : orchestrator.dispatch index step
        (orchestrator.resolver.resolve step.nodeType outputs run.input)
        with ⟨calls, error | output, latencyMs⟩
      · rw [events_executeSteps_of_error rfl hdispatch]
        simp [Payload.StartsRun]
      · rw [events_executeSteps_of_ok rfl hdispatch]
        simpa [Payload.StartsRun] using ih (index + 1) _ _ _ _ rfl

end Orchestrator

/-- Everything on which a run depends. -/
structure Commission where
  orchestrator : Orchestrator
  draws : Draws
  canvasId : String
  graph : Graph
  input : Record

namespace Commission

/-- The run that is commissioned. -/
def execution (commission : Commission) : Execution :=
  commission.orchestrator.execute commission.draws commission.canvasId commission.graph
    commission.input

/-- The id of the run. -/
def runId (commission : Commission) : Uuid := commission.draws.runId

/-- The events of the run. -/
def events (commission : Commission) : List Event := commission.execution.events

/-- The run while it is under way. -/
def begunRun (commission : Commission) : Run :=
  Orchestrator.begunRun commission.draws commission.canvasId commission.input

/-- The event with which the run starts. -/
def start (commission : Commission) (totalSteps : Nat) : Event :=
  ⟨commission.draws.clock 0, commission.runId,
    .runStarted commission.canvasId commission.input totalSteps⟩

variable (commission : Commission)

theorem startsRun_start (totalSteps : Nat) : (commission.start totalSteps).payload.StartsRun :=
  trivial

theorem runId_of_mem_events {event : Event} (h : event ∈ commission.events) :
    event.runId = commission.runId :=
  (commission.orchestrator.runId_execute commission.draws commission.canvasId commission.graph
    commission.input).2 event h

/-- A run fails at once if its canvas has no plan. Else the steps of the plan are executed. -/
theorem execution_cases :
    (∃ error, commission.execution =
      (Orchestrator.failRun commission.draws 1 commission.begunRun [] (.planning error)).after
        [Orchestrator.begun commission.draws commission.canvasId commission.input 0]) ∨
    ∃ plan, commission.graph.plan = .ok plan ∧ commission.execution =
      (commission.orchestrator.executeSteps commission.draws commission.begunRun plan.steps 0 []
        Outputs.empty 0).after
        [Orchestrator.begun commission.draws commission.canvasId commission.input plan.size] := by
  cases planned : commission.graph.plan with
  | error error =>
      exact .inl ⟨error, Orchestrator.execute_of_planning_error _ _ _ _ planned⟩
  | ok plan => exact .inr ⟨plan, rfl, Orchestrator.execute_of_plan _ _ _ _ planned⟩

/-- A run starts with its first event, and not again. -/
theorem events_eq_cons :
    ∃ totalSteps rest, commission.events = commission.start totalSteps :: rest ∧
      ∀ event ∈ rest, ¬ event.payload.StartsRun := by
  rcases commission.execution_cases with ⟨error, failed⟩ | ⟨plan, -, executed⟩
  · refine ⟨_, [_], congrArg Execution.events failed, fun event hevent => ?_⟩
    rw [List.mem_singleton.1 hevent]
    exact id
  · have events := congrArg Execution.events executed
    rw [Execution.events_after] at events
    exact ⟨_, _, events,
      Orchestrator.not_startsRun_executeSteps plan.steps 0 [] Outputs.empty 0 _ rfl⟩

theorem startedIds_events : Tracer.startedIds commission.events = [commission.runId] := by
  obtain ⟨totalSteps, rest, events, later⟩ := commission.events_eq_cons
  have none : Tracer.startedIds rest = [] := by
    rw [Tracer.startedIds, List.map_eq_nil_iff, List.filter_eq_nil_iff]
    simpa using later
  rw [events, Tracer.startedIds_cons_of_startsRun (commission.startsRun_start _), none]
  rfl

end Commission

namespace Tracer

variable {id : Uuid}

/-- Whether two tracers answer alike whatever is asked about a run. -/
structure AgreesOn (tracer other : Tracer) (id : Uuid) : Prop where
  run : tracer.run? id = other.run? id
  steps : tracer.steps id = other.steps id
  output : ∀ nodeId, tracer.stepOutput? id nodeId = other.stepOutput? id nodeId

theorem agreesOn_of_find? {tracer other : Tracer} (h : tracer.find? id = other.find? id) :
    tracer.AgreesOn other id := by
  have steps : tracer.steps id = other.steps id := by rw [Tracer.steps, Tracer.steps, h]
  refine ⟨?_, steps, fun nodeId => ?_⟩
  · rw [run?, run?, h]
  · rw [stepOutput?, stepOutput?, steps]

theorem isSome_run?_iff {tracer : Tracer} :
    (tracer.run? id).isSome ↔ tracer.find? id ≠ none := by
  rw [run?, Option.isSome_map, Option.isSome_iff_ne_none]

end Tracer

section Runs

variable {ι : Type} [DecidableEq ι] {commissions : ι → Commission} {events : List Event}

/-- Of runs with different ids none starts twice, however their events are interleaved. -/
theorem nodup_startedIds_of_interleaved
    (distinct : Function.Injective fun i => (commissions i).runId)
    (arrived : Interleaved (fun i => (commissions i).events) events) :
    (Tracer.startedIds events).Nodup := by
  refine List.nodup_iff_count_le_one.2 fun id => ?_
  by_cases mem : id ∈ Tracer.startedIds events
  · obtain ⟨event, hevent, starts, rfl⟩ := Tracer.mem_startedIds.1 mem
    obtain ⟨i, hi⟩ := arrived.exists_mem hevent
    have own : event.runId = (commissions i).runId := (commissions i).runId_of_mem_events hi
    have part := arrived.filter_isPrefix distinct
      (fun j _ hitem => (commissions j).runId_of_mem_events hitem) i
    calc
      (Tracer.startedIds events).count event.runId
        = (Tracer.startedIds (events.filter (·.runId = event.runId))).length := by
          rw [Tracer.startedIds_filter, List.count_eq_length_filter]
          rfl
      _ ≤ (Tracer.startedIds (commissions i).events).length := by
          rw [own]
          exact (Tracer.startedIds_sublist part.sublist).length_le
      _ = 1 := by rw [(commissions i).startedIds_events, List.length_singleton]
  · exact (List.count_eq_zero_of_not_mem mem).trans_le (Nat.zero_le 1)

variable {before after : List Event} {start : Event} {i : ι}

/-- Of runs with different ids whose events are interleaved, one that has started is held exactly if
fewer others have started since than there is room for. If it is held, all answers about it are
those of a tracer, with whatever room, that records only what has arrived of this run. -/
theorem interleaved_runs_separate (capacity : Nat)
    (distinct : Function.Injective fun i => (commissions i).runId)
    (arrived : Interleaved (fun i => (commissions i).events) (before ++ start :: after))
    (starts : start.payload.StartsRun) (own : start.runId = (commissions i).runId) :
    let id := (commissions i).runId
    let events := before ++ start :: after
    let tracer := (Tracer.ofCapacity capacity).recordAll events
    events.filter (·.runId = id) <+: (commissions i).events ∧
    ((tracer.run? id).isSome ↔
      (after.filter fun event => event.payload.StartsRun ∧ event.runId ≠ id).length <
        max capacity 1) ∧
    ((tracer.run? id).isSome → ∀ room,
      tracer.AgreesOn ((Tracer.ofCapacity room).recordAll (events.filter (·.runId = id))) id) := by
  intro id events tracer
  have once : (Tracer.startedIds events).Nodup := nodup_startedIds_of_interleaved distinct arrived
  have others : (after.filter fun event => event.payload.StartsRun ∧ event.runId ≠ id) =
      after.filter fun event => event.payload.StartsRun := by
    refine List.filter_congr fun event hevent => ?_
    have later :=
      Tracer.not_startsRun_of_not_mem (Tracer.not_mem_of_once once starts).2 event hevent
    by_cases again : event.payload.StartsRun
    · have other : event.runId ≠ id := fun same => later (same.trans own.symm) again
      simp [again, other]
    · simp [again]
  refine ⟨?_, ?_, fun held room => ?_⟩
  · exact arrived.filter_isPrefix distinct
      (fun j _ hitem => (commissions j).runId_of_mem_events hitem) i
  · have room := Tracer.find?_recordAll_ne_none_iff capacity once starts
    rw [own, Tracer.startedIds, List.length_map] at room
    rw [Tracer.isSome_run?_iff, others]
    exact room
  · exact Tracer.agreesOn_of_find?
      (Tracer.find?_recordAll_eq_alone once (Tracer.isSome_run?_iff.1 held) room)

end Runs

/-- A second run starts and ends in the midst of the first. The tracer has room for one, so it
forgets the first run, passes over what is still to come of it, and answers about the second as if
it had never heard of the first. -/
theorem run_pushed_out_in_its_midst :
    let graph : Graph :=
      ⟨[.ofId "question" .query, .ofId "answer" .generate], [⟨"e1", "question", "answer"⟩]⟩
    let commissions (second : Bool) : Commission :=
      ⟨⟨.echoing, .standard⟩, ⟨⟨if second then 2 else 1⟩, fun n => ⟨n⟩, fun _ => default⟩, "canvas",
        graph, Dict.empty⟩
    let first := (commissions false).events
    let second := (commissions true).events
    let tracer := (Tracer.ofCapacity 1).recordAll (first.take 3 ++ second ++ first.drop 3)
    first.length = 6 ∧ second.length = 6 ∧ tracer.run? ⟨1⟩ = none ∧ (tracer.run? ⟨2⟩).isSome ∧
      tracer.AgreesOn ((Tracer.ofCapacity 5).recordAll second) ⟨2⟩ := by
  intro graph commissions first second tracer
  have lengths : first.length = 6 ∧ second.length = 6 := by decide +kernel
  have forgotten : tracer.run? ⟨1⟩ = none := by decide +kernel
  have held : (tracer.run? ⟨2⟩).isSome := by decide +kernel
  have distinct : Function.Injective fun i => (commissions i).runId := by
    have differ : ∀ i j, (commissions i).runId = (commissions j).runId → i = j := by decide
    exact fun i j => differ i j
  have arrives (streams : Bool → List Event) :
      Interleaved streams ((streams false).take 3 ++ (streams true ++ (streams false).drop 3)) := by
    refine .stretch (i := false) (List.take_append_drop 3 _).symm ?_
    refine .stretch (i := true) (show _ = streams true ++ [] by simp) ?_
    rw [← List.append_nil ((streams false).drop 3)]
    exact .stretch (i := false) (show _ = (streams false).drop 3 ++ [] by simp) .stopped
  obtain ⟨totalSteps, rest, hsecond, -⟩ := (commissions true).events_eq_cons
  have arrived := arrives fun i => (commissions i).events
  change Interleaved _ (first.take 3 ++ (second ++ first.drop 3)) at arrived
  have events : first.take 3 ++ second ++ first.drop 3 =
      first.take 3 ++ (commissions true).start totalSteps :: (rest ++ first.drop 3) := by
    rw [List.append_assoc, show second = _ :: rest from hsecond]
    rfl
  rw [← List.append_assoc, events] at arrived
  obtain ⟨part, -, agrees⟩ := interleaved_runs_separate 1 distinct arrived
    ((commissions true).startsRun_start totalSteps) rfl
  rw [← events] at part agrees
  have alone : (first.take 3 ++ second ++ first.drop 3).filter (·.runId = ⟨2⟩) = second := by
    have complete : ((first.take 3 ++ second ++ first.drop 3).filter (·.runId = ⟨2⟩)).length =
        second.length := by decide +kernel
    exact part.eq_of_length complete
  exact ⟨lengths.1, lengths.2, forgotten, held, alone ▸ agrees held 5⟩

end Canvas
