import Canvas.Proofs.Run.Execution

/-!
# Dispatching the steps of a plan

`Orchestrator.Dispatches` says what comes of the steps of a plan when they are dispatched one after
the other: one record for each, until one fails, and one call of its executor. An executor is asked
with the input that the resolver makes of the outputs before it. A step whose type has no executor
fails without a call.

The relation does not mention events. `Orchestrator.executeSteps_dispatches` shows that executing
the steps obeys it, and what a run calls, records and returns is read off the relation.
-/

namespace Canvas

namespace Outputs

/-- The outputs after some more steps, which completed if their records hold an output. -/
def addRecords (outputs : Outputs) (records : List StepRecord) : Outputs :=
  ⟨outputs.entries ++ records.filterMap fun record =>
    record.output.map fun output => ⟨record.nodeId, record.nodeType, output⟩⟩

/-- The outputs that step records hold, in the order of the records. -/
def ofRecords (records : List StepRecord) : Outputs := empty.addRecords records

@[simp] theorem addRecords_nil (outputs : Outputs) : outputs.addRecords [] = outputs := by
  simp [addRecords]

end Outputs

namespace Execution

variable (execution : Execution) (before : List Occurrence)

@[simp] theorem failure_after : (execution.after before).failure = execution.failure := rfl

end Execution

/-- The outputs that step `i` of a run finds. -/
def Execution.outputsBefore (execution : Execution) (i : Nat) : Outputs :=
  .ofRecords (execution.report.steps.take i)

/-- Whether a record is about a step of a plan, with the position of the step. -/
structure StepRecord.TellsOf (record : StepRecord) (draws : Draws) (runId : Uuid) (index : Nat)
    (step : PlanStep) : Prop where
  id : record.id = draws.stepId index
  runId : record.runId = runId
  nodeId : record.nodeId = step.nodeId
  nodeType : record.nodeType = step.nodeType
  label : record.label = step.label

namespace Orchestrator

variable (orchestrator : Orchestrator) (draws : Draws) (run : Run)

/-- What the executor of a step is asked to do once the steps before it left their outputs. -/
def invocation (outputs : Outputs) (index : Nat) (step : PlanStep) : Invocation :=
  ⟨index, orchestrator.resolver.resolve step.nodeType outputs run.input, step.config⟩

/-- Whether the executor of a step answers a call with an output after some time. -/
def Answers (step : PlanStep) (call : Invocation) (output : Record) (latencyMs : Nat) : Prop :=
  ∃ executor, orchestrator.registry.find? step.nodeType = some executor ∧
    executor.execute call = ⟨.ok output, latencyMs⟩

/-- How a step that is dispatched with a call can fail, the calls that are made of it, and the error
and the time that are recorded. -/
inductive Fails (orchestrator : Orchestrator) (step : PlanStep) (call : Invocation) :
    List (NodeType × Invocation) → RunError → Nat → Prop
  | refused {executor : Executor} {cause : StepError} {latencyMs : Nat}
      (registered : orchestrator.registry.find? step.nodeType = some executor)
      (refusal : executor.execute call = ⟨.error cause, latencyMs⟩) :
      Fails orchestrator step call [(step.nodeType, call)] (.stepFailed step.nodeId cause) latencyMs
  | unserved (unregistered : orchestrator.registry.find? step.nodeType = none) :
      Fails orchestrator step call [] (.unknownStepType step.nodeId step.nodeType) 0

/-- What comes of dispatching steps, the first of which has the number `index` and finds the given
outputs: the records, the calls, and the error that ends the run if a step fails. -/
inductive Dispatches (orchestrator : Orchestrator) (draws : Draws) (run : Run) :
    Nat → Outputs → List PlanStep → List StepRecord → List (NodeType × Invocation) →
      Option RunError → Prop
  | done {index : Nat} {outputs : Outputs} :
      Dispatches orchestrator draws run index outputs [] [] [] none
  | completed {index : Nat} {outputs : Outputs} {step : PlanStep} {rest : List PlanStep}
      {records : List StepRecord} {calls : List (NodeType × Invocation)}
      {failure : Option RunError} {call : Invocation} {output : Record} {latencyMs : Nat}
      (asked : orchestrator.invocation run outputs index step = call)
      (answer : orchestrator.Answers step call output latencyMs)
      (tail : Dispatches orchestrator draws run (index + 1)
        (outputs.insert step.nodeId step.nodeType output) rest records calls failure) :
      Dispatches orchestrator draws run index outputs (step :: rest)
        (completedRecord draws run index step call.input output latencyMs :: records)
        ((step.nodeType, call) :: calls) failure
  | failed {index : Nat} {outputs : Outputs} {step : PlanStep} {rest : List PlanStep}
      {calls : List (NodeType × Invocation)} {call : Invocation} {error : RunError}
      {latencyMs : Nat} (asked : orchestrator.invocation run outputs index step = call)
      (failing : orchestrator.Fails step call calls error latencyMs) :
      Dispatches orchestrator draws run index outputs (step :: rest)
        [failedRecord draws run index step call.input error latencyMs] calls (some error)

variable {orchestrator draws run}
variable {step : PlanStep} {index : Nat} {input : Record}

/-- A step that completed adds its output. -/
theorem addRecords_completedRecord (outputs : Outputs) (output : Record) (latencyMs : Nat)
    (records : List StepRecord) :
    outputs.addRecords (completedRecord draws run index step input output latencyMs :: records) =
      (outputs.insert step.nodeId step.nodeType output).addRecords records := by
  simp [Outputs.addRecords, Outputs.insert, completedRecord, startedRecord, StepRecord.complete,
    StepRecord.started]

theorem dispatch_of_registered {executor : Executor} {result : Except StepError Record}
    {latencyMs : Nat} (registered : orchestrator.registry.find? step.nodeType = some executor)
    (answer : executor.execute ⟨index, input, step.config⟩ = ⟨result, latencyMs⟩) :
    orchestrator.dispatch index step input =
      ([.called step.nodeType ⟨index, input, step.config⟩],
        result.mapError (RunError.stepFailed step.nodeId), latencyMs) := by
  simp only [dispatch, registered, answer]

theorem dispatch_of_unregistered
    (unregistered : orchestrator.registry.find? step.nodeType = none) :
    orchestrator.dispatch index step input =
      ([], .error (.unknownStepType step.nodeId step.nodeType), 0) := by
  simp only [dispatch, unregistered]

/-- The run as it is left when its last event has the given number. -/
def leftRun (draws : Draws) (run : Run) (number : Nat) (outputs : Outputs) :
    Option RunError → Run
  | none => run.complete (outputs.final?.getD Dict.empty) (draws.clock number)
  | some error => run.fail error.message (draws.clock number)

theorem leftRun_id (number : Nat) (outputs : Outputs) (failure : Option RunError) :
    (leftRun draws run number outputs failure).id = run.id := by
  cases failure with
  | none => rfl
  | some error => rfl

/-- Executing steps dispatches them, adds their records to those of the steps before, and leaves the
run as the failure says, if there is one. -/
theorem executeSteps_dispatches (remaining : List PlanStep) (index : Nat)
    (steps : List StepRecord) (outputs : Outputs) (elapsedMs : Nat) (execution : Execution)
    (h : orchestrator.executeSteps draws run remaining index steps outputs elapsedMs = execution) :
    ∃ records, execution.report.steps = steps ++ records ∧
      orchestrator.Dispatches draws run index outputs remaining records execution.calls
        execution.failure ∧
      execution.report.run = leftRun draws run (startEvent (index + records.length))
        (outputs.addRecords records) execution.failure := by
  induction remaining generalizing index steps outputs elapsedMs execution with
  | nil =>
      subst h
      refine ⟨[], ?_, .done, ?_⟩
      · exact (List.append_nil steps).symm
      · rw [Outputs.addRecords_nil]
        rfl
  | cons step rest ih =>
      subst h
      have asked := Eq.refl (orchestrator.invocation run outputs index step)
      cases registered : orchestrator.registry.find? step.nodeType with
      | none =>
          rw [executeSteps_of_error rfl (dispatch_of_unregistered registered)]
          exact ⟨[_], rfl, .failed asked (.unserved registered), rfl⟩
      | some executor =>
          rcases answer : executor.execute (orchestrator.invocation run outputs index step)
            with ⟨cause | output, latencyMs⟩
          · rw [executeSteps_of_error rfl (dispatch_of_registered registered answer)]
            exact ⟨[_], rfl, .failed asked (.refused registered answer), rfl⟩
          · rw [executeSteps_of_ok rfl (dispatch_of_registered registered answer)]
            obtain ⟨records, report, tail, left⟩ := ih (index + 1) _ _ _ _ rfl
            refine ⟨_ :: records, ?_, .completed asked ⟨executor, registered, answer⟩ tail, ?_⟩
            · rw [Execution.report_after, report, List.append_assoc]
              rfl
            · rw [Execution.report_after, left, Execution.failure_after,
                addRecords_completedRecord, List.length_cons,
                Nat.add_right_comm index 1 records.length]
              rfl

variable {outputs : Outputs} {steps : List PlanStep} {records : List StepRecord}
variable {calls : List (NodeType × Invocation)} {failure : Option RunError} {i : Nat}
variable {record : StepRecord}

/-- The records are about the first steps, in their order. -/
theorem Dispatches.tellsOf
    (h : orchestrator.Dispatches draws run index outputs steps records calls failure)
    (hstep : steps[i]? = some step) (hrecord : records[i]? = some record) :
    record.TellsOf draws run.id (index + i) step := by
  induction h generalizing i with
  | done => simp at hstep
  | completed asked answer tail ih =>
      cases i with
      | zero =>
          obtain rfl := Option.some.inj hstep
          obtain rfl := Option.some.inj hrecord
          exact ⟨rfl, rfl, rfl, rfl, rfl⟩
      | succ i =>
          have later := ih hstep hrecord
          rwa [Nat.add_right_comm] at later
  | failed asked failing =>
      cases i with
      | zero =>
          obtain rfl := Option.some.inj hstep
          obtain rfl := Option.some.inj hrecord
          exact ⟨rfl, rfl, rfl, rfl, rfl⟩
      | succ i => simp at hrecord

theorem Dispatches.length_le
    (h : orchestrator.Dispatches draws run index outputs steps records calls failure) :
    records.length ≤ steps.length := by
  induction h with
  | done => exact Nat.le_refl _
  | completed asked answer tail ih => exact Nat.succ_le_succ ih
  | failed asked failing => exact Nat.succ_le_succ (Nat.zero_le _)

/-- Every step gets the id that is drawn for its number. -/
theorem Dispatches.ids
    (h : orchestrator.Dispatches draws run index outputs steps records calls failure) :
    records.map (·.id) = (List.range' index records.length).map draws.stepId := by
  induction h with
  | done => rfl
  | completed asked answer tail ih => exact congrArg _ ih
  | failed asked failing => rfl

/-- Each step finds the outputs of the steps before it. -/
theorem Dispatches.input_eq
    (h : orchestrator.Dispatches draws run index outputs steps records calls failure)
    (hstep : steps[i]? = some step) (hrecord : records[i]? = some record) :
    record.input = orchestrator.resolver.resolve step.nodeType
      (outputs.addRecords (records.take i)) run.input := by
  induction h generalizing i with
  | done => simp at hstep
  | completed asked answer tail ih =>
      cases i with
      | zero =>
          obtain rfl := Option.some.inj hstep
          obtain rfl := Option.some.inj hrecord
          rw [List.take_zero, Outputs.addRecords_nil, ← asked]
          rfl
      | succ i =>
          rw [List.take_succ_cons, addRecords_completedRecord]
          exact ih hstep hrecord
  | failed asked failing =>
      cases i with
      | zero =>
          obtain rfl := Option.some.inj hstep
          obtain rfl := Option.some.inj hrecord
          rw [List.take_zero, Outputs.addRecords_nil, ← asked]
          rfl
      | succ i => simp at hrecord

end Orchestrator

namespace Orchestrator

variable (orchestrator : Orchestrator) (draws : Draws) (canvasId : String) (input : Record)
variable {graph : Graph} {plan : Plan}

/-- The run as it is while its steps are executed. -/
def begunRun (draws : Draws) (canvasId : String) (input : Record) : Run :=
  .started draws.runId canvasId input (draws.clock 0)

/-- The event with which a run starts. -/
def begun (draws : Draws) (canvasId : String) (input : Record) (totalSteps : Nat) : Occurrence :=
  emit draws 0 (.runStarted canvasId input totalSteps) ⟨begunRun draws canvasId input, []⟩

theorem execute_of_plan (planned : graph.plan = .ok plan) :
    orchestrator.execute draws canvasId graph input =
      (orchestrator.executeSteps draws (begunRun draws canvasId input) plan.steps 0 []
        Outputs.empty 0).after [begun draws canvasId input plan.size] := by
  simp only [execute, planned]
  rfl

theorem execute_of_planning_error {error : PlanningError} (failed : graph.plan = .error error) :
    orchestrator.execute draws canvasId graph input =
      (failRun draws 1 (begunRun draws canvasId input) [] (.planning error)).after
        [begun draws canvasId input 0] := by
  simp only [execute, failed]
  rfl

/-- A run dispatches the steps of its plan from the first on, and is left as its failure says. -/
theorem execute_dispatches (planned : graph.plan = .ok plan) (execution : Execution)
    (h : orchestrator.execute draws canvasId graph input = execution) :
    orchestrator.Dispatches draws (begunRun draws canvasId input) 0 Outputs.empty plan.steps
      execution.report.steps execution.calls execution.failure ∧
    execution.report.run = leftRun draws (begunRun draws canvasId input)
      (startEvent execution.report.steps.length) (Outputs.ofRecords execution.report.steps)
      execution.failure := by
  rw [execute_of_plan orchestrator draws canvasId input planned] at h
  subst h
  obtain ⟨records, report, dispatches, left⟩ :=
    executeSteps_dispatches plan.steps 0 [] Outputs.empty 0 _ rfl
  rw [List.nil_append] at report
  rw [Nat.zero_add, ← report] at left
  rw [← report] at dispatches
  exact ⟨dispatches, left⟩

variable {orchestrator draws canvasId input} {execution : Execution} {i : Nat} {step : PlanStep}
variable {record : StepRecord}

/-- The input of a step is what its resolver makes of the outputs that it finds. -/
theorem input_eq_resolve (planned : graph.plan = .ok plan)
    (h : orchestrator.execute draws canvasId graph input = execution)
    (hstep : plan.steps[i]? = some step) (hrecord : execution.report.steps[i]? = some record) :
    record.input =
      orchestrator.resolver.resolve step.nodeType (execution.outputsBefore i) input := by
  have dispatches := (orchestrator.execute_dispatches draws canvasId input planned execution h).1
  exact dispatches.input_eq hstep hrecord

end Orchestrator

end Canvas
