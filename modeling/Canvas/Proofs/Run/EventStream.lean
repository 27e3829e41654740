import Canvas.Proofs.Run.Execution

/-!
# The event stream of a run

Every run starts with the event that says so and ends with one that says how. In between each step
of the plan starts and completes, up to the step that fails, if one does. A run that cannot be
planned starts and fails at once.
-/

namespace Canvas

/-- What the events of an execution say, in order. -/
def Execution.payloads (execution : Execution) : List Payload := execution.events.map (·.payload)

/-- The events of steps that all complete, where `index` is the position of the first: a start and a
completion each, about the same step. -/
inductive StepsComplete (draws : Draws) : Nat → List PlanStep → List Payload → Prop where
  | nil (index : Nat) : StepsComplete draws index [] []
  | cons {index : Nat} {rest : List PlanStep} {payloads : List Payload} (step : PlanStep)
      (input output : Record) (latencyMs : Nat) :
      StepsComplete draws (index + 1) rest payloads →
      StepsComplete draws index (step :: rest)
        (.stepStarted (draws.refAt index step) input ::
          .stepCompleted (draws.refAt index step) output latencyMs :: payloads)

/-- The events from the first of some steps on if all of them complete. -/
def Finishes (draws : Draws) (index : Nat) (steps : List PlanStep) (payloads : List Payload) :
    Prop :=
  ∃ pairs output elapsedMs, StepsComplete draws index steps pairs ∧
    payloads = pairs ++ [.runCompleted output elapsedMs]

/-- The events from the first of some steps on if one of them, number `k`, fails. -/
def Aborts (draws : Draws) (index : Nat) (steps : List PlanStep) (payloads : List Payload) : Prop :=
  ∃ k step pairs input stepError latencyMs runError, steps[k]? = some step ∧
    StepsComplete draws index (steps.take k) pairs ∧
    payloads = pairs ++
      [.stepStarted (draws.refAt (index + k) step) input,
        .stepFailed (draws.refAt (index + k) step) stepError latencyMs, .runFailed runError]

variable {draws : Draws} {index : Nat} {steps : List PlanStep} {payloads : List Payload}

theorem Finishes.cons (step : PlanStep) (input output : Record) (latencyMs : Nat)
    (h : Finishes draws (index + 1) steps payloads) :
    Finishes draws index (step :: steps)
      (.stepStarted (draws.refAt index step) input ::
        .stepCompleted (draws.refAt index step) output latencyMs :: payloads) := by
  obtain ⟨pairs, final, elapsedMs, complete, rfl⟩ := h
  exact ⟨_, final, elapsedMs, .cons step input output latencyMs complete, rfl⟩

theorem Aborts.cons (step : PlanStep) (input output : Record) (latencyMs : Nat)
    (h : Aborts draws (index + 1) steps payloads) :
    Aborts draws index (step :: steps)
      (.stepStarted (draws.refAt index step) input ::
        .stepCompleted (draws.refAt index step) output latencyMs :: payloads) := by
  obtain ⟨k, failing, pairs, failingInput, stepError, failingMs, runError, hk, complete, rfl⟩ := h
  refine ⟨k + 1, failing, _, failingInput, stepError, failingMs, runError, hk,
    .cons step input output latencyMs complete, ?_⟩
  rw [Nat.add_right_comm index 1 k, Nat.add_assoc]
  rfl

/-- How the stream ends tells the two apart. -/
theorem Finishes.not_aborts (h : Finishes draws index steps payloads) :
    ¬ Aborts draws index steps payloads := by
  rintro ⟨k, step, pairs', input, stepError, latencyMs, runError, _, _, aborted⟩
  obtain ⟨pairs, output, elapsedMs, _, rfl⟩ := h
  have last := congrArg List.getLast? aborted
  simp at last

theorem Finishes.ne_nil (h : Finishes draws index steps payloads) : payloads ≠ [] := by
  obtain ⟨pairs, output, elapsedMs, _, rfl⟩ := h
  simp

theorem Aborts.ne_nil (h : Aborts draws index steps payloads) : payloads ≠ [] := by
  obtain ⟨k, step, pairs, input, stepError, latencyMs, runError, _, _, rfl⟩ := h
  simp

/-- Whether a run is over with an event. -/
def Payload.EndsRun : Payload → Prop
  | runCompleted .. | runFailed .. => True
  | _ => False

theorem StepsComplete.not_endsRun {payload : Payload} (h : StepsComplete draws index steps payloads)
    (hp : payload ∈ payloads) : ¬ payload.EndsRun := by
  induction h with
  | nil => simp at hp
  | cons step input output latencyMs _ ih =>
      rcases List.mem_cons.1 hp with rfl | hp
      · exact id
      · rcases List.mem_cons.1 hp with rfl | hp
        · exact id
        · exact ih hp

theorem Finishes.not_endsRun {payload : Payload} (h : Finishes draws index steps payloads)
    (hp : payload ∈ payloads.dropLast) : ¬ payload.EndsRun := by
  obtain ⟨pairs, output, elapsedMs, complete, rfl⟩ := h
  rw [List.dropLast_concat] at hp
  exact complete.not_endsRun hp

theorem Aborts.not_endsRun {payload : Payload} (h : Aborts draws index steps payloads)
    (hp : payload ∈ payloads.dropLast) : ¬ payload.EndsRun := by
  obtain ⟨k, step, pairs, input, stepError, latencyMs, runError, _, complete, rfl⟩ := h
  rw [List.dropLast_append_of_ne_nil (by simp)] at hp
  rcases List.mem_append.1 hp with hp | hp
  · exact complete.not_endsRun hp
  · simp only [List.dropLast, List.mem_cons, List.not_mem_nil, or_false] at hp
    rcases hp with rfl | rfl
    · exact id
    · exact id

namespace Orchestrator

variable {orchestrator : Orchestrator} {run : Run}

/-- Executing steps either finishes or aborts, and leaves the run in the status that says so. -/
theorem executeSteps_finishes_or_aborts (remaining : List PlanStep) (index : Nat)
    (steps : List StepRecord) (outputs : Outputs) (elapsedMs : Nat) (execution : Execution)
    (h : orchestrator.executeSteps draws run remaining index steps outputs elapsedMs = execution) :
    (Finishes draws index remaining execution.payloads ∧
      execution.report.run.status = .completed) ∨
    (Aborts draws index remaining execution.payloads ∧
      execution.report.run.status = .failed) := by
  -- What came before the first step is arbitrary, so the steps behind it are a case of the same.
  induction remaining generalizing index steps outputs elapsedMs execution with
  | nil =>
      subst h
      exact .inl ⟨⟨[], _, _, .nil index, rfl⟩, rfl⟩
  | cons step rest ih =>
      subst h
      rcases hdispatch : orchestrator.dispatch index step
        (orchestrator.resolver.resolve step.nodeType outputs run.input)
        with ⟨calls, error | output, latencyMs⟩
      · right
        rw [Execution.payloads, events_executeSteps_of_error rfl hdispatch,
          executeSteps_of_error rfl hdispatch, Execution.report_after]
        exact ⟨⟨0, step, [], _, _, _, _, rfl, .nil index, rfl⟩, rfl⟩
      · rw [Execution.payloads, events_executeSteps_of_ok rfl hdispatch,
          executeSteps_of_ok rfl hdispatch, Execution.report_after]
        rcases ih (index + 1) _ _ _ _ rfl with ⟨finishes, completed⟩ | ⟨aborts, failed⟩
        · exact .inl ⟨finishes.cons step _ output latencyMs, completed⟩
        · exact .inr ⟨aborts.cons step _ output latencyMs, failed⟩

/-- All events of the steps and the report carry the id of the run. -/
theorem runId_executeSteps (remaining : List PlanStep) (index : Nat) (steps : List StepRecord)
    (outputs : Outputs) (elapsedMs : Nat) (execution : Execution)
    (h : orchestrator.executeSteps draws run remaining index steps outputs elapsedMs = execution) :
    execution.report.run.id = run.id ∧ ∀ event ∈ execution.events, event.runId = run.id := by
  induction remaining generalizing index steps outputs elapsedMs execution with
  | nil =>
      subst h
      rw [events_executeSteps_nil]
      exact ⟨rfl, by simp⟩
  | cons step rest ih =>
      subst h
      rcases hdispatch : orchestrator.dispatch index step
        (orchestrator.resolver.resolve step.nodeType outputs run.input)
        with ⟨calls, error | output, latencyMs⟩
      · rw [events_executeSteps_of_error rfl hdispatch, executeSteps_of_error rfl hdispatch,
          Execution.report_after]
        exact ⟨rfl, by simp⟩
      · rw [events_executeSteps_of_ok rfl hdispatch, executeSteps_of_ok rfl hdispatch,
          Execution.report_after]
        obtain ⟨report, events⟩ := ih (index + 1) _ _ _ _ rfl
        exact ⟨report, by simpa using events⟩

end Orchestrator

/-- The courses that a run can take. -/
inductive Course where
  | unplanned
  | finished
  | aborted
  deriving DecidableEq

namespace Course

variable {canvasId : String} {graph : Graph} {input : Record}

/-- The status in which each course leaves the run. -/
def status : Course → Status
  | finished => .completed
  | unplanned | aborted => .failed

/-- The events of a run that takes a course. -/
def Emits (draws : Draws) (canvasId : String) (graph : Graph) (input : Record)
    (payloads : List Payload) : Course → Prop
  | unplanned =>
    ∃ error, graph.plan = .error error ∧
      payloads = [.runStarted canvasId input 0, .runFailed (RunError.planning error).message]
  | finished =>
    ∃ plan rest, graph.plan = .ok plan ∧ Finishes draws 0 plan.steps rest ∧
      payloads = .runStarted canvasId input plan.size :: rest
  | aborted =>
    ∃ plan rest, graph.plan = .ok plan ∧ Aborts draws 0 plan.steps rest ∧
      payloads = .runStarted canvasId input plan.size :: rest

/-- No events are those of two courses. -/
theorem Emits.unique {first second : Course} (h : first.Emits draws canvasId graph input payloads)
    (h' : second.Emits draws canvasId graph input payloads) : first = second := by
  cases first <;> cases second
  case unplanned.unplanned | finished.finished | aborted.aborted => rfl
  case finished.aborted =>
    obtain ⟨plan, rest, planned, finishes, rfl⟩ := h
    obtain ⟨plan', rest', planned', aborts, same⟩ := h'
    obtain rfl := Except.ok.inj (planned.symm.trans planned')
    obtain ⟨_, rfl⟩ := List.cons.inj same
    exact absurd aborts finishes.not_aborts
  case aborted.finished =>
    obtain ⟨plan, rest, planned, finishes, rfl⟩ := h'
    obtain ⟨plan', rest', planned', aborts, same⟩ := h
    obtain rfl := Except.ok.inj (planned.symm.trans planned')
    obtain ⟨_, rfl⟩ := List.cons.inj same
    exact absurd aborts finishes.not_aborts
  case unplanned.finished | unplanned.aborted =>
    obtain ⟨error, failed, _⟩ := h
    obtain ⟨plan, rest, planned, _⟩ := h'
    rw [failed] at planned
    contradiction
  case finished.unplanned | aborted.unplanned =>
    obtain ⟨error, failed, _⟩ := h'
    obtain ⟨plan, rest, planned, _⟩ := h
    rw [failed] at planned
    contradiction

/-- A run is over with its last event, not before. -/
theorem Emits.not_endsRun {course : Course} {payload : Payload}
    (h : course.Emits draws canvasId graph input payloads) (hp : payload ∈ payloads.dropLast) :
    ¬ payload.EndsRun := by
  cases course with
  | unplanned =>
      obtain ⟨error, _, rfl⟩ := h
      obtain rfl := List.mem_singleton.1 hp
      exact id
  | finished =>
      obtain ⟨plan, rest, _, finishes, rfl⟩ := h
      rw [List.dropLast_cons_of_ne_nil finishes.ne_nil] at hp
      rcases List.mem_cons.1 hp with rfl | hp
      · exact id
      · exact finishes.not_endsRun hp
  | aborted =>
      obtain ⟨plan, rest, _, aborts, rfl⟩ := h
      rw [List.dropLast_cons_of_ne_nil aborts.ne_nil] at hp
      rcases List.mem_cons.1 hp with rfl | hp
      · exact id
      · exact aborts.not_endsRun hp

end Course

namespace Orchestrator

variable (orchestrator : Orchestrator) (draws : Draws) (canvasId : String) (graph : Graph)
  (input : Record)

/-- Every run takes a course, and is left in the status of that course. -/
theorem execute_takes_course :
    ∃ course : Course,
      course.Emits draws canvasId graph input
        (orchestrator.execute draws canvasId graph input).payloads ∧
      (orchestrator.execute draws canvasId graph input).report.run.status = course.status := by
  unfold execute
  cases planned : graph.plan with
  | error error => exact ⟨.unplanned, ⟨error, planned, rfl⟩, rfl⟩
  | ok plan =>
      rcases executeSteps_finishes_or_aborts plan.steps 0 [] Outputs.empty 0 _ rfl with
        ⟨finishes, completed⟩ | ⟨aborts, failed⟩
      · exact ⟨.finished, ⟨plan, _, planned, finishes, by
          rw [Execution.payloads, Execution.events_after]; rfl⟩, completed⟩
      · exact ⟨.aborted, ⟨plan, _, planned, aborts, by
          rw [Execution.payloads, Execution.events_after]; rfl⟩, failed⟩

/-- The id that a run draws is that of its report and of all its events. -/
theorem runId_execute :
    (orchestrator.execute draws canvasId graph input).report.run.id = draws.runId ∧
    ∀ event ∈ (orchestrator.execute draws canvasId graph input).events,
      event.runId = draws.runId := by
  unfold execute
  cases graph.plan with
  | error error =>
      refine ⟨rfl, fun event hevent => ?_⟩
      rcases List.mem_pair.1 hevent with rfl | rfl
      · rfl
      · rfl
  | ok plan =>
      obtain ⟨report, events⟩ := runId_executeSteps plan.steps 0 [] Outputs.empty 0 _ rfl
      refine ⟨report, fun event hevent => ?_⟩
      rw [Execution.events_after] at hevent
      rcases List.mem_cons.1 hevent with rfl | hevent
      · rfl
      · exact events event hevent

/-- A run that cannot be planned starts with no steps and fails. Any other run starts with the
number of its steps; then each step starts and completes in the order of the plan until all are
done, or until one fails and ends the run. Every event belongs to the run, only the last one ends
it, and the report says how it ended. -/
theorem execute_follows_course :
    (∃! course : Course, course.Emits draws canvasId graph input
      (orchestrator.execute draws canvasId graph input).payloads) ∧
    (∀ course : Course, course.Emits draws canvasId graph input
        (orchestrator.execute draws canvasId graph input).payloads →
      (orchestrator.execute draws canvasId graph input).report.run.status = course.status) ∧
    (∀ event ∈ (orchestrator.execute draws canvasId graph input).events,
      event.runId = (orchestrator.execute draws canvasId graph input).report.run.id) ∧
    ∀ payload ∈ (orchestrator.execute draws canvasId graph input).payloads.dropLast,
      ¬ payload.EndsRun := by
  obtain ⟨course, emits, status⟩ := orchestrator.execute_takes_course draws canvasId graph input
  obtain ⟨report, events⟩ := orchestrator.runId_execute draws canvasId graph input
  refine ⟨⟨course, emits, fun other h => h.unique emits⟩, fun other h => ?_,
    fun event hevent => (events event hevent).trans report.symm,
    fun payload hpayload => emits.not_endsRun hpayload⟩
  obtain rfl := h.unique emits
  exact status

end Orchestrator

end Canvas
