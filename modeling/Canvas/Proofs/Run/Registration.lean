import Canvas.Engine
import Canvas.Proofs.Run.Outcome
import Canvas.Proofs.Run.Outputs

/-!
# Registered executors

All that counts of the executors that were registered is the last one for each type. If an engine
asks for a complete registry, a type without an executor is found out when it is built, and no run
can meet one. Otherwise a run meets it when it dispatches a step of the type: the steps before it
completed, and the step fails without a call.
-/

namespace Canvas

namespace Registry

variable {executors : List Executor} {type : NodeType}

/-- The executor that was registered last for a type. -/
def latest? (executors : List Executor) (type : NodeType) : Option Executor :=
  executors.reverse.find? (·.type = type)

/-- The types for which no executor was registered, in the order of all types. -/
def unserved (executors : List Executor) : List NodeType :=
  NodeType.all.filter (· ∉ executors.map (·.type))

theorem mem_unserved_iff :
    type ∈ unserved executors ↔ ∀ executor ∈ executors, executor.type ≠ type := by
  simp [unserved]

theorem latest?_eq_none_iff : latest? executors type = none ↔ type ∈ unserved executors := by
  simp [latest?, mem_unserved_iff]

theorem latest?_cons (first : Executor) (rest : List Executor) (type : NodeType) :
    latest? (first :: rest) type =
      (latest? rest type).or (if first.type = type then some first else none) := by
  rw [latest?, List.reverse_cons, List.find?_append, List.find?_singleton]
  simp [latest?]

/-- Registering executors one after the other leaves the last one for each type. -/
theorem find?_registerAll (registry : Registry) (executors : List Executor) (type : NodeType) :
    (registry.registerAll executors).find? type =
      (latest? executors type).or (registry.find? type) := by
  induction executors generalizing registry with
  | nil => rfl
  | cons first rest ih =>
      have registered : registry.registerAll (first :: rest) =
          (registry.register first).registerAll rest := rfl
      rw [registered, ih, find?_register, latest?_cons, Option.or_assoc]
      split
      · rfl
      · rfl

theorem find?_registerAll_empty (executors : List Executor) (type : NodeType) :
    (empty.registerAll executors).find? type = latest? executors type := by
  rw [find?_registerAll, find?_empty, Option.or_none]

theorem missingTypes_registerAll_empty (executors : List Executor) :
    (empty.registerAll executors).missingTypes = unserved executors := by
  apply List.filter_congr
  intro type _
  rw [contains, find?_registerAll_empty]
  cases found : latest? executors type with
  | none => simpa [unserved] using latest?_eq_none_iff.1 found
  | some executor =>
      have served : type ∉ unserved executors := by
        rw [← latest?_eq_none_iff, found]
        exact Option.some_ne_none executor
      simpa [unserved] using served

end Registry

namespace Engine

variable {registry : Registry} {resolver : Resolver} {settings : Settings} {engine later : Engine}

/-- An engine is refused if it asks for executors that are missing. -/
theorem build_eq (registry : Registry) (resolver : Resolver) (settings : Settings) :
    build registry resolver settings =
      if settings.requireCompleteRegistry = true ∧ registry.missingTypes ≠ [] then
        .error (.incomplete registry.missingTypes)
      else
        .ok ⟨⟨registry, resolver⟩, .ofCapacity settings.tracerCapacity,
          .ofCapacity settings.eventBufferSize⟩ := by
  unfold build Registry.ensureComplete
  cases settings.requireCompleteRegistry with
  | false => rfl
  | true =>
      cases registry.missingTypes with
      | nil => rfl
      | cons type types => rfl

theorem build_eq_error_iff {error : RegistryError} :
    build registry resolver settings = .error error ↔
      (settings.requireCompleteRegistry = true ∧ registry.missingTypes ≠ []) ∧
        error = .incomplete registry.missingTypes := by
  rw [build_eq]
  split
  · rename_i refused
    simp [refused, eq_comm]
  · rename_i accepted
    simp [accepted]

theorem of_build (h : build registry resolver settings = .ok engine) :
    engine.orchestrator = ⟨registry, resolver⟩ ∧
      (settings.requireCompleteRegistry = true → registry.missingTypes = []) := by
  rw [build_eq] at h
  split at h
  · contradiction
  · rename_i accepted
    obtain rfl := Except.ok.inj h
    exact ⟨rfl, fun asked => by_contra fun missing => accepted ⟨asked, missing⟩⟩

/-- Whether an engine has come of another by runs and by events that were announced. -/
inductive Becomes (engine : Engine) : Engine → Prop
  | unused : Becomes engine engine
  | run {later : Engine} (h : Becomes engine later) (draws : Draws) (canvasId : String)
      (graph : Graph) (input : Record) : Becomes engine (later.run draws canvasId graph input).2
  | announce {later : Engine} (h : Becomes engine later) (event : Event) :
      Becomes engine (later.announce event)

/-- Neither runs nor events change what an engine works with. -/
theorem Becomes.orchestrator_eq (h : engine.Becomes later) :
    later.orchestrator = engine.orchestrator := by
  induction h with
  | unused => rfl
  | run _ draws canvasId graph input ih => exact (orchestrator_publishAll _ _).trans ih
  | announce _ event ih => exact ih

end Engine

/-- Whether a record tells how an execution ended. -/
def StepRecord.TellsEnd (record : StepRecord) : Completion → Prop
  | ⟨.ok output, latencyMs⟩ => record.Succeeded output latencyMs
  | ⟨.error cause, latencyMs⟩ => record.Failed cause.message latencyMs

namespace Orchestrator

/-- What became of step `i` of a plan when it was dispatched: its executor was called with the input
that is recorded, and the record tells how it ended; or there is none, and the step failed without a
call. -/
inductive HandedOver (executor? : Option Executor) (i : Nat) (step : PlanStep)
    (record : StepRecord) : Option (NodeType × Invocation) → Prop
  | called {executor : Executor} (served : executor? = some executor)
      (told : record.TellsEnd (executor.execute ⟨i, record.input, step.config⟩)) :
      HandedOver executor? i step record
        (some (step.nodeType, ⟨i, record.input, step.config⟩))
  | uncalled {latencyMs : Nat} (unserved : executor? = none)
      (failed : record.Failed (RunError.unknownStepType step.nodeId step.nodeType).message
        latencyMs) :
      HandedOver executor? i step record none

/-- Whether step `k` of a plan is the first that did not complete. -/
structure StopsAt (plan : Plan) (execution : Execution) (k : Nat) (step : PlanStep) : Prop where
  listed : plan.steps[k]? = some step
  before : ∀ i < k, ∃ record, execution.report.steps[i]? = some record ∧ record.status = .completed
  incomplete : ∀ record, execution.report.steps[k]? = some record → record.status ≠ .completed

section Dispatches

variable {orchestrator : Orchestrator} {draws : Draws} {run : Run} {index i k : Nat}
variable {outputs : Outputs} {step : PlanStep} {steps : List PlanStep} {record : StepRecord}
variable {records : List StepRecord} {calls : List (NodeType × Invocation)}
variable {error : RunError} {failure : Option RunError}

/-- Each record is that of a step which was handed over to the executor that is found for its
type. -/
theorem Dispatches.handedOver
    (h : orchestrator.Dispatches draws run index outputs steps records calls failure)
    (hrecord : records[i]? = some record) :
    ∃ step, steps[i]? = some step ∧
      HandedOver (orchestrator.registry.find? step.nodeType) (index + i) step record calls[i]? := by
  induction h generalizing i with
  | done => simp at hrecord
  | @completed index outputs step rest records calls failure call output latencyMs asked answer
      tail ih =>
      cases i with
      | zero =>
          obtain rfl := Option.some.inj hrecord
          obtain ⟨executor, registered, answered⟩ := answer
          refine ⟨step, rfl, ?_⟩
          subst asked
          refine .called registered ?_
          show StepRecord.TellsEnd _
            (executor.execute (orchestrator.invocation run outputs index step))
          rw [answered]
          exact ⟨rfl, rfl, rfl, rfl⟩
      | succ i =>
          have later := ih hrecord
          rwa [Nat.add_right_comm] at later
  | @failed index outputs step rest calls call error latencyMs asked failing =>
      cases i with
      | zero =>
          obtain rfl := Option.some.inj hrecord
          refine ⟨step, rfl, ?_⟩
          subst asked
          cases failing with
          | @refused executor cause latencyMs registered refusal =>
              refine .called registered ?_
              show StepRecord.TellsEnd _
                (executor.execute (orchestrator.invocation run outputs index step))
              rw [refusal]
              exact ⟨rfl, rfl, rfl, rfl⟩
          | unserved unregistered => exact .uncalled unregistered ⟨rfl, rfl, rfl, rfl⟩
      | succ i => simp at hrecord

/-- A step fails with this error exactly if its type has no executor. -/
theorem Fails.eq_unknownStepType_iff {call : Invocation} {latencyMs : Nat} {nodeId : String}
    {type : NodeType} (h : orchestrator.Fails step call calls error latencyMs) :
    error = .unknownStepType nodeId type ↔
      (step.nodeId = nodeId ∧ step.nodeType = type) ∧ orchestrator.registry.find? type = none := by
  cases h with
  | refused registered refusal =>
      refine iff_of_false RunError.noConfusion ?_
      rintro ⟨⟨-, rfl⟩, unregistered⟩
      rw [registered] at unregistered
      contradiction
  | unserved unregistered =>
      rw [RunError.unknownStepType.injEq]
      refine ⟨fun same => ⟨same, same.2 ▸ unregistered⟩, fun h => h.1⟩

variable {plan : Plan} {execution : Execution}

theorem CompletesAll.not_stopsAt
    (h : orchestrator.CompletesAll 0 plan.steps execution.report.steps calls) :
    ¬ StopsAt plan execution k step := by
  intro stops
  have bound : k < execution.report.steps.length := by
    rw [h.dispatched]
    exact (List.getElem?_eq_some_iff.1 stops.listed).1
  have hrecord := List.getElem?_eq_getElem bound
  obtain ⟨_, _, succeeded, -⟩ := h.completed k step _ stops.listed hrecord
  exact stops.incomplete _ hrecord succeeded.1

/-- A run that fails stops at the step that fails. -/
theorem FailsAt.exists_stopsAt
    (h : orchestrator.FailsAt 0 k plan.steps execution.report.steps calls error) :
    ∃ step call last latencyMs, StopsAt plan execution k step ∧
      orchestrator.Fails step call last error latencyMs := by
  obtain ⟨step, record, last, latencyMs, hstep, hrecord, failed, fails, -⟩ := h.failed
  refine ⟨step, _, last, latencyMs, ⟨hstep, ?_, ?_⟩, fails⟩
  · intro i hi
    have listed : i < plan.steps.length :=
      Nat.lt_trans hi (List.getElem?_eq_some_iff.1 hstep).1
    have recorded : i < execution.report.steps.length := by
      rw [h.dispatched]
      omega
    have hearlier := List.getElem?_eq_getElem recorded
    obtain ⟨_, _, succeeded, -⟩ :=
      h.completed i _ _ hi (List.getElem?_eq_getElem listed) hearlier
    exact ⟨_, hearlier, succeeded.1⟩
  · intro other hother
    obtain rfl := Option.some.inj (hrecord.symm.trans hother)
    rw [failed.1]
    exact Status.noConfusion

/-- There is one step at which a run stops. -/
theorem StopsAt.unique {l : Nat} {other : PlanStep} (h : StopsAt plan execution k step)
    (h' : StopsAt plan execution l other) : step = other := by
  have not_before : ∀ {m n : Nat} {a b : PlanStep}, StopsAt plan execution m a →
      StopsAt plan execution n b → ¬ m < n := by
    intro m n a b first second lt
    obtain ⟨record, hrecord, completed⟩ := second.before m lt
    exact first.incomplete record hrecord completed
  have same : k = l := Nat.le_antisymm (Nat.le_of_not_lt (not_before h' h))
    (Nat.le_of_not_lt (not_before h h'))
  subst same
  exact Option.some.inj (h.listed.symm.trans h'.listed)

theorem Dispatches.failure_eq_unknownStepType_iff {nodeId : String} {type : NodeType}
    (h : orchestrator.Dispatches draws run 0 outputs plan.steps execution.report.steps calls
      failure) :
    failure = some (.unknownStepType nodeId type) ↔
      (∃ k step, StopsAt plan execution k step ∧ step.nodeId = nodeId ∧ step.nodeType = type) ∧
        orchestrator.registry.find? type = none := by
  rcases h.completesAll_or_failsAt with ⟨rfl, completes⟩ | ⟨k, error, rfl, fails⟩
  · refine iff_of_false (Option.some_ne_none _).symm ?_
    rintro ⟨⟨k, step, stops, -⟩, -⟩
    exact completes.not_stopsAt stops
  · obtain ⟨step, call, last, latencyMs, stops, failing⟩ := fails.exists_stopsAt
    rw [Option.some.injEq, failing.eq_unknownStepType_iff]
    constructor
    · rintro ⟨same, unregistered⟩
      exact ⟨⟨k, step, stops, same⟩, unregistered⟩
    · rintro ⟨⟨l, other, stops', same⟩, unregistered⟩
      rw [stops.unique stops']
      exact ⟨same, unregistered⟩

end Dispatches

/-- What a run owes to the executors that were registered. It fails for want of an executor exactly
if the first step that did not complete is of a type for which none was registered, and every step
that it dispatches goes to the executor that was registered last for its type. -/
structure GoesBy (executors : List Executor) (graph : Graph) (execution : Execution) : Prop where
  unserved : ∀ nodeId type, execution.failure = some (.unknownStepType nodeId type) ↔
    graph.validate.valid = true ∧
    (∃ plan k step, graph.plan = .ok plan ∧ StopsAt plan execution k step ∧
      step.nodeId = nodeId ∧ step.nodeType = type) ∧
    type ∈ Registry.unserved executors
  told : ∀ error, execution.failure = some error →
    execution.report.run.status = .failed ∧ execution.report.run.error = some error.message
  handedOver : ∀ plan, graph.plan = .ok plan →
    ∀ (i : Nat) (record : StepRecord), execution.report.steps[i]? = some record →
      ∃ step, plan.steps[i]? = some step ∧
        HandedOver (Registry.latest? executors step.nodeType) i step record execution.calls[i]?

theorem execute_goesBy (executors : List Executor) (resolver : Resolver) (draws : Draws)
    (canvasId : String) (graph : Graph) (input : Record) :
    GoesBy executors graph
      (execute ⟨Registry.empty.registerAll executors, resolver⟩ draws canvasId graph input) := by
  let orchestrator : Orchestrator := ⟨Registry.empty.registerAll executors, resolver⟩
  have finds (type : NodeType) :
      orchestrator.registry.find? type = Registry.latest? executors type :=
    Registry.find?_registerAll_empty executors type
  change GoesBy executors graph (orchestrator.execute draws canvasId graph input)
  cases planned : graph.plan with
  | error error =>
      rw [execute_of_planning_error orchestrator draws canvasId input planned]
      refine ⟨fun nodeId type => iff_of_false ?_ ?_, ?_, ?_⟩
      · intro same
        exact RunError.noConfusion (Option.some.inj same)
      · rintro ⟨-, ⟨plan, _, _, other, -⟩, -⟩
        rw [planned] at other
        contradiction
      · intro other same
        obtain rfl := Option.some.inj same
        exact ⟨rfl, rfl⟩
      · intro plan other
        rw [planned] at other
        contradiction
  | ok plan =>
      obtain ⟨dispatches, left⟩ :=
        orchestrator.execute_dispatches draws canvasId input planned _ rfl
      refine ⟨fun nodeId type => ?_, ?_, ?_⟩
      · rw [dispatches.failure_eq_unknownStepType_iff, finds, Registry.latest?_eq_none_iff]
        constructor
        · rintro ⟨⟨k, step, stops⟩, unserved⟩
          exact ⟨Graph.valid_of_plan planned, ⟨plan, k, step, planned, stops⟩, unserved⟩
        · rintro ⟨-, ⟨other, k, step, same, stops⟩, unserved⟩
          obtain rfl := Except.ok.inj (planned.symm.trans same)
          exact ⟨⟨k, step, stops⟩, unserved⟩
      · intro error failed
        rw [left, failed]
        exact ⟨rfl, rfl⟩
      · intro other same i record hrecord
        obtain rfl := Except.ok.inj (planned.symm.trans same)
        obtain ⟨step, hstep, handed⟩ := dispatches.handedOver hrecord
        rw [finds, Nat.zero_add] at handed
        exact ⟨step, hstep, handed⟩

end Orchestrator

namespace Engine

open Orchestrator (GoesBy)

/-- An engine is refused exactly if it asks for a complete registry and some type was never
registered; the error lists these types in their order. An engine that asked for it never meets a
step without an executor, and in every other one it happens just where the registrations say so. -/
theorem registrations_decide (executors : List Executor) (resolver : Resolver)
    (settings : Settings) :
    (∀ error, build (Registry.empty.registerAll executors) resolver settings = .error error ↔
      (settings.requireCompleteRegistry = true ∧ Registry.unserved executors ≠ []) ∧
        error = .incomplete (Registry.unserved executors)) ∧
    ∀ built engine, build (Registry.empty.registerAll executors) resolver settings = .ok built →
      built.Becomes engine → ∀ draws canvasId graph input,
        GoesBy executors graph (engine.run draws canvasId graph input).1 ∧
        (settings.requireCompleteRegistry = true → ∀ nodeId type,
          (engine.run draws canvasId graph input).1.failure ≠
            some (.unknownStepType nodeId type)) := by
  constructor
  · intro error
    rw [build_eq_error_iff, Registry.missingTypes_registerAll_empty]
  · intro built engine hbuilt becomes draws canvasId graph input
    obtain ⟨orchestrator, complete⟩ := of_build hbuilt
    rw [Registry.missingTypes_registerAll_empty] at complete
    have runs : (engine.run draws canvasId graph input).1 =
        Orchestrator.execute ⟨Registry.empty.registerAll executors, resolver⟩ draws canvasId graph
          input := by
      rw [run, becomes.orchestrator_eq, orchestrator]
    rw [runs]
    have goes := Orchestrator.execute_goesBy executors resolver draws canvasId graph input
    refine ⟨goes, fun asked nodeId type failed => ?_⟩
    obtain ⟨-, -, unserved⟩ := (goes.unserved nodeId type).1 failed
    rw [complete asked] at unserved
    exact List.not_mem_nil unserved

/-- Nothing answers for the guess between the question and the answer. An engine that asks for all
types is refused; one that does not fails at the guess, behind the question. -/
theorem registrations_decide_without_guess :
    let executors : List Executor := [.echo .query, .delay .generate, .echo .generate]
    let registry := Registry.empty.registerAll executors
    let graph : Graph :=
      ⟨[.ofId "question" .query, .ofId "guess" .hyde, .ofId "answer" .generate],
        [⟨"e1", "question", "guess"⟩, ⟨"e2", "guess", "answer"⟩]⟩
    build registry .standard ⟨1000, 100, true⟩ =
      .error (.incomplete [.embed, .retrieve, .rerank, .judge, .hyde, .agent]) ∧
    ∃ engine, build registry .standard .standard = .ok engine ∧
      (engine.run ⟨.nil, fun n => ⟨n⟩, fun _ => default⟩ "canvas" graph Dict.empty).1.failure =
        some (.unknownStepType "guess" .hyde) := by
  intro executors registry graph
  constructor
  · exact ((registrations_decide executors .standard ⟨1000, 100, true⟩).1 _).2
      ⟨⟨rfl, by decide⟩, by decide⟩
  · refine ⟨_, rfl, ?_⟩
    obtain ⟨goes, -⟩ := (registrations_decide executors .standard .standard).2 _ _ rfl .unused
      ⟨.nil, fun n => ⟨n⟩, fun _ => default⟩ "canvas" graph Dict.empty
    generalize hrun : (run _ _ _ _ _).1 = execution at goes ⊢
    have statuses : execution.report.steps.map (·.status) = [.completed, .failed] := by
      rw [← hrun]
      decide +kernel
    have status (i : Nat) : execution.report.steps[i]?.map (·.status) =
        [Status.completed, .failed][i]? := by
      rw [← List.getElem?_map, statuses]
    have origins : graph.origins? =
        some [("question", .query), ("guess", .hyde), ("answer", .generate)] := by
      decide +kernel
    obtain ⟨plan, planned, origins⟩ := Graph.exists_plan_of_origins origins
    obtain ⟨step, hstep, origin⟩ : ∃ step, plan.steps[1]? = some step ∧
        step.origin = ("guess", .hyde) := by
      rw [← Option.map_eq_some_iff, ← List.getElem?_map, origins]
      rfl
    obtain ⟨nodeId, nodeType⟩ := Prod.mk.inj origin
    have stops : Orchestrator.StopsAt plan execution 1 step := by
      refine ⟨hstep, fun i hi => ?_, fun record hrecord completed => ?_⟩
      · obtain rfl : i = 0 := by omega
        exact Option.map_eq_some_iff.1 (status 0)
      · have failed := status 1
        rw [hrecord, Option.map_some, completed] at failed
        exact Status.noConfusion (Option.some.inj failed)
    exact (goes.unserved _ _).2 ⟨Graph.valid_of_plan planned,
      ⟨plan, 1, step, planned, stops, nodeId, nodeType⟩, by decide⟩

end Engine

end Canvas
