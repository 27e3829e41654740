import Canvas.Proofs.Run.Dispatch

/-!
# What a run calls, records and returns

A run dispatches the steps of its plan in order, records each with the input that it got, and calls
its executor once with that input. Either all steps complete or the run stops at the first that
fails. The lemmas on `CompletesAll` and `FailsAt` carry the two endings over a step that completed
before.
-/

namespace Canvas

/-- Whether the record of a step holds an output. -/
def StepRecord.Succeeded (record : StepRecord) (output : Record) (latencyMs : Nat) : Prop :=
  record.status = .completed ∧ record.output = some output ∧ record.error = none ∧
    record.latencyMs = some latencyMs

/-- Whether the record of a step holds an error. -/
def StepRecord.Failed (record : StepRecord) (error : String) (latencyMs : Nat) : Prop :=
  record.status = .failed ∧ record.output = none ∧ record.error = some error ∧
    record.latencyMs = some latencyMs

namespace Orchestrator

/-- The calls that the records of steps amount to: one for each record, with the number of the step,
the input that is recorded, and the configuration of the step. -/
def callsOf (index : Nat) (steps : List PlanStep) (records : List StepRecord) :
    List (NodeType × Invocation) :=
  ((steps.zip records).zipIdx index).map fun ((step, record), i) =>
    (step.nodeType, ⟨i, record.input, step.config⟩)

/-- Whether the executor of a step answered, and the record says so. -/
def Completes (orchestrator : Orchestrator) (index : Nat) (step : PlanStep) (record : StepRecord) :
    Prop :=
  ∃ output latencyMs, record.Succeeded output latencyMs ∧
    orchestrator.Answers step ⟨index, record.input, step.config⟩ output latencyMs

/-- Whether all steps completed, each by one call. -/
structure CompletesAll (orchestrator : Orchestrator) (index : Nat) (steps : List PlanStep)
    (records : List StepRecord) (calls : List (NodeType × Invocation)) : Prop where
  dispatched : records.length = steps.length
  completed : ∀ (i : Nat) (step : PlanStep) (record : StepRecord), steps[i]? = some step →
    records[i]? = some record → orchestrator.Completes (index + i) step record
  called : calls = callsOf index steps records

/-- Whether the steps before step `k` completed, each by one call, that one failed, and no other was
dispatched. The failing step was called as well, unless its type has no executor. -/
structure FailsAt (orchestrator : Orchestrator) (index k : Nat) (steps : List PlanStep)
    (records : List StepRecord) (calls : List (NodeType × Invocation)) (error : RunError) :
    Prop where
  dispatched : records.length = k + 1
  completed : ∀ (i : Nat) (step : PlanStep) (record : StepRecord), i < k → steps[i]? = some step →
    records[i]? = some record → orchestrator.Completes (index + i) step record
  failed : ∃ step record last latencyMs, steps[k]? = some step ∧ records[k]? = some record ∧
    record.Failed error.stepMessage latencyMs ∧
    orchestrator.Fails step ⟨index + k, record.input, step.config⟩ last error latencyMs ∧
    calls = callsOf index steps (records.take k) ++ last

section Endings

variable {orchestrator : Orchestrator} {draws : Draws} {run : Run} {index i k : Nat}
variable {step : PlanStep} {steps rest : List PlanStep} {outputs : Outputs}
variable {record : StepRecord} {records : List StepRecord}
variable {calls : List (NodeType × Invocation)} {error : RunError} {failure : Option RunError}

theorem callsOf_cons (index : Nat) (step : PlanStep) (rest : List PlanStep) (record : StepRecord)
    (records : List StepRecord) :
    callsOf index (step :: rest) (record :: records) =
      (step.nodeType, ⟨index, record.input, step.config⟩) :: callsOf (index + 1) rest records := rfl

theorem completes_completedRecord {output : Record} {latencyMs : Nat}
    (answer : orchestrator.Answers step (orchestrator.invocation run outputs index step) output
      latencyMs) :
    orchestrator.Completes index step
      (completedRecord draws run index step (orchestrator.invocation run outputs index step).input
        output latencyMs) :=
  ⟨output, latencyMs, ⟨rfl, rfl, rfl, rfl⟩, answer⟩

/-- A step that completed stands before steps that all complete. -/
theorem CompletesAll.cons (h : orchestrator.CompletesAll (index + 1) rest records calls)
    (first : orchestrator.Completes index step record) :
    orchestrator.CompletesAll index (step :: rest) (record :: records)
      ((step.nodeType, ⟨index, record.input, step.config⟩) :: calls) := by
  refine ⟨congrArg (· + 1) h.dispatched, ?_, ?_⟩
  · intro i other otherRecord hstep hrecord
    cases i with
    | zero =>
        obtain rfl := Option.some.inj hstep
        obtain rfl := Option.some.inj hrecord
        exact first
    | succ i =>
        have later := h.completed i other otherRecord hstep hrecord
        rwa [Nat.add_right_comm] at later
  · rw [callsOf_cons, h.called]

/-- A step that completed stands before steps one of which fails. -/
theorem FailsAt.cons (h : orchestrator.FailsAt (index + 1) k rest records calls error)
    (first : orchestrator.Completes index step record) :
    orchestrator.FailsAt index (k + 1) (step :: rest) (record :: records)
      ((step.nodeType, ⟨index, record.input, step.config⟩) :: calls) error := by
  refine ⟨congrArg (· + 1) h.dispatched, ?_, ?_⟩
  · intro i other otherRecord hi hstep hrecord
    cases i with
    | zero =>
        obtain rfl := Option.some.inj hstep
        obtain rfl := Option.some.inj hrecord
        exact first
    | succ i =>
        have later := h.completed i other otherRecord (Nat.lt_of_succ_lt_succ hi) hstep hrecord
        rwa [Nat.add_right_comm] at later
  · obtain ⟨failing, failingRecord, last, latencyMs, hstep, hrecord, failed, fails, called⟩ :=
      h.failed
    refine ⟨failing, failingRecord, last, latencyMs, hstep, hrecord, failed, ?_, ?_⟩
    · rwa [Nat.add_right_comm] at fails
    · rw [List.take_succ_cons, callsOf_cons, called]
      rfl

/-- Either all steps complete, or one fails and its error is that of the run. -/
theorem Dispatches.completesAll_or_failsAt
    (h : orchestrator.Dispatches draws run index outputs steps records calls failure) :
    (failure = none ∧ orchestrator.CompletesAll index steps records calls) ∨
    ∃ k error, failure = some error ∧
      orchestrator.FailsAt index k steps records calls error := by
  induction h with
  | done => exact .inl ⟨rfl, rfl, by simp, rfl⟩
  | completed asked answer tail ih =>
      subst asked
      rcases ih with ⟨rfl, completes⟩ | ⟨k, error, rfl, fails⟩
      · exact .inl ⟨rfl, completes.cons (completes_completedRecord answer)⟩
      · exact .inr ⟨k + 1, error, rfl, fails.cons (completes_completedRecord answer)⟩
  | failed asked failing =>
      subst asked
      refine .inr ⟨0, _, rfl, rfl, by simp, ?_⟩
      exact ⟨_, _, _, _, rfl, rfl, ⟨rfl, rfl, rfl, rfl⟩, failing, rfl⟩

/-- The records are about the nodes of the first steps. -/
theorem Dispatches.nodeIds_isPrefix
    (h : orchestrator.Dispatches draws run index outputs steps records calls failure) :
    records.map (·.nodeId) <+: steps.map (·.nodeId) := by
  induction h with
  | done => exact List.prefix_refl _
  | completed asked answer tail ih => exact List.cons_prefix_cons.2 ⟨rfl, ih⟩
  | failed asked failing => exact List.cons_prefix_cons.2 ⟨rfl, List.nil_prefix⟩

/-- The steps that completed are those with an output. -/
theorem Dispatches.completed_iff
    (h : orchestrator.Dispatches draws run index outputs steps records calls failure) :
    ∀ record ∈ records, record.status = .completed ↔ record.output.isSome := by
  induction h with
  | done => exact fun record hrecord => absurd hrecord List.not_mem_nil
  | completed asked answer tail ih =>
      exact List.forall_mem_cons.2 ⟨⟨fun _ => rfl, fun _ => rfl⟩, ih⟩
  | failed asked failing =>
      refine List.forall_mem_singleton.2 ⟨fun completed => ?_, fun answered => ?_⟩
      · exact absurd completed Status.noConfusion
      · exact absurd answered Bool.false_ne_true

end Endings

/-- What a run owes to its plan. A step finds the outputs of the steps before it and is recorded
with the input that it got. Either all steps complete, and the output of the run is chosen from
theirs, or the run fails with the first step that does. -/
structure Carries (orchestrator : Orchestrator) (draws : Draws) (steps : List PlanStep)
    (input : Record) (execution : Execution) : Prop where
  recorded : ∀ (i : Nat) (step : PlanStep) (record : StepRecord), steps[i]? = some step →
    execution.report.steps[i]? = some record →
    record.TellsOf draws execution.report.run.id i step ∧
    record.input =
      orchestrator.resolver.resolve step.nodeType (execution.outputsBefore i) input
  ended :
    (orchestrator.CompletesAll 0 steps execution.report.steps execution.calls ∧
      execution.report.run.status = .completed ∧
      execution.report.run.output =
        some ((Outputs.ofRecords execution.report.steps).final?.getD Dict.empty) ∧
      execution.report.run.error = none) ∨
    ∃ k error, orchestrator.FailsAt 0 k steps execution.report.steps execution.calls error ∧
      execution.report.run.status = .failed ∧
      execution.report.run.output = none ∧
      execution.report.run.error = some error.message

variable (orchestrator : Orchestrator) (draws : Draws) (canvasId : String) (graph : Graph)
  (input : Record)

/-- A run that can be planned calls the executors in the order of the plan, once for each step that
it dispatches, with what the outputs of the steps before it and the input of the run come to. It
stops at the first step that fails, which is also recorded. A run that cannot be planned dispatches
nothing. -/
theorem execute_carries_plan :
    (∀ error, graph.plan = .error error →
      (orchestrator.execute draws canvasId graph input).calls = [] ∧
      (orchestrator.execute draws canvasId graph input).report.steps = []) ∧
    ∀ plan, graph.plan = .ok plan →
      orchestrator.Carries draws plan.steps input
        (orchestrator.execute draws canvasId graph input) := by
  constructor
  · intro error failed
    rw [execute_of_planning_error orchestrator draws canvasId input failed]
    exact ⟨rfl, rfl⟩
  · intro plan planned
    obtain ⟨dispatches, left⟩ :=
      orchestrator.execute_dispatches draws canvasId input planned _ rfl
    refine ⟨?_, ?_⟩
    · intro i step record hstep hrecord
      have runId : (orchestrator.execute draws canvasId graph input).report.run.id =
          draws.runId := by
        rw [left, leftRun_id]
        rfl
      have tells := dispatches.tellsOf hstep hrecord
      rw [Nat.zero_add] at tells
      rw [runId]
      exact ⟨tells, input_eq_resolve planned rfl hstep hrecord⟩
    · rw [left]
      rcases dispatches.completesAll_or_failsAt with ⟨none, completes⟩ | ⟨k, error, some, fails⟩
      · rw [none]
        exact .inl ⟨completes, rfl, rfl, rfl⟩
      · rw [some]
        exact .inr ⟨k, error, fails, rfl, rfl, rfl⟩

end Orchestrator

end Canvas
