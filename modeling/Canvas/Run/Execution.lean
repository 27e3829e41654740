import Canvas.Event
import Canvas.Plan
import Canvas.Registry
import Canvas.Resolver
import Canvas.Run.Failure

/-!
# Execution of runs

A run compiles its canvas and executes the steps of the plan one by one. The first step that fails
ends it. An `Execution` lists in order what happens: events are emitted, executors are called. Every
event is listed together with the report as it stands when the event is emitted.

A run draws its ids and the times of its events from outside. Apart from them it depends on nothing
but the canvas, the input, the registry and the resolver; no two runs share any state.
-/

namespace Canvas

/-- What a run takes from its surroundings: an id for itself and for each step, and the time at
which each event is emitted, counted from the first. -/
structure Draws where
  runId : Uuid
  stepId : Nat → Uuid
  clock : Nat → Timestamp

/-- Something that happens during a run. -/
inductive Occurrence where
  | emitted (event : Event) (held : RunReport)
  | called (type : NodeType) (call : Invocation)

/-- All that happens during a run, in order, its final report, and the error that ended it if one
did. -/
structure Execution where
  occurrences : List Occurrence
  report : RunReport
  failure : Option RunError

namespace Occurrence

/-- The event that is emitted, if it is one. -/
def event? : Occurrence → Option Event
  | emitted event _ => some event
  | called .. => none

/-- The executor call, if it is one. -/
def call? : Occurrence → Option (NodeType × Invocation)
  | emitted .. => none
  | called type call => some (type, call)

end Occurrence

namespace Execution

/-- The events, in the order in which they are emitted. -/
def events (execution : Execution) : List Event := execution.occurrences.filterMap Occurrence.event?

/-- The executor calls, in order. -/
def calls (execution : Execution) : List (NodeType × Invocation) :=
  execution.occurrences.filterMap Occurrence.call?

/-- The same execution with something that happened before it. -/
def after (execution : Execution) (before : List Occurrence) : Execution :=
  { execution with occurrences := before ++ execution.occurrences }

end Execution

/-- A registry and a resolver, with which runs are executed. -/
structure Orchestrator where
  registry : Registry
  resolver : Resolver

namespace Orchestrator

variable (orchestrator : Orchestrator) (draws : Draws)

/-- The number of the event with which a step starts. -/
def startEvent (index : Nat) : Nat := 2 * index + 1

/-- The number of the event with which a step ends. -/
def endEvent (index : Nat) : Nat := 2 * index + 2

/-- Emit an event of a run. -/
def emit (number : Nat) (payload : Payload) (held : RunReport) : Occurrence :=
  .emitted ⟨draws.clock number, held.run.id, payload⟩ held

/-- The end of a run that fails with its event of the given number. -/
def failRun (number : Nat) (run : Run) (steps : List StepRecord) (error : RunError) : Execution :=
  let report : RunReport := ⟨run.fail error.message (draws.clock number), steps⟩
  ⟨[emit draws number (.runFailed error.message) report], report, some error⟩

/-- The end of a run whose steps all completed. Its output is that of the newest terminal step. -/
def completeRun (number : Nat) (run : Run) (steps : List StepRecord) (outputs : Outputs)
    (elapsedMs : Nat) : Execution :=
  let output := outputs.final?.getD Dict.empty
  let report : RunReport := ⟨run.complete output (draws.clock number), steps⟩
  ⟨[emit draws number (.runCompleted output elapsedMs) report], report, none⟩

/-- Call the executor of a step, if there is one: the call, how it ended, and after how long. -/
def dispatch (index : Nat) (step : PlanStep) (input : Record) :
    List Occurrence × Except RunError Record × Nat :=
  match orchestrator.registry.find? step.nodeType with
  | none => ([], .error (.unknownStepType step.nodeId step.nodeType), 0)
  | some executor =>
    let call : Invocation := ⟨index, input, step.config⟩
    let completion := executor.execute call
    ([.called step.nodeType call],
      completion.result.mapError (RunError.stepFailed step.nodeId), completion.elapsedMs)

/-- Execute the remaining steps of a plan. `steps` holds the records of the steps before them,
`outputs` what these produced, and `elapsedMs` how long they took. -/
def executeSteps (run : Run) :
    List PlanStep → (index : Nat) → (steps : List StepRecord) → Outputs → (elapsedMs : Nat) →
      Execution
  | [], index, steps, outputs, elapsedMs =>
    completeRun draws (startEvent index) run steps outputs elapsedMs
  | step :: rest, index, steps, outputs, elapsedMs =>
    let input := orchestrator.resolver.resolve step.nodeType outputs run.input
    let stepId := draws.stepId index
    let ref : StepRef := ⟨stepId, step.nodeId, step.nodeType, step.label, index⟩
    let record := StepRecord.started stepId run.id step.nodeId step.nodeType step.label input
      (draws.clock (startEvent index))
    let started := emit draws (startEvent index) (.stepStarted ref input) ⟨run, steps ++ [record]⟩
    let (calls, result, latencyMs) := orchestrator.dispatch index step input
    let endedAt := draws.clock (endEvent index)
    match result with
    | .ok output =>
      let steps := steps ++ [record.complete output latencyMs endedAt]
      let completed := emit draws (endEvent index) (.stepCompleted ref output latencyMs)
        ⟨run, steps⟩
      (executeSteps run rest (index + 1) steps (outputs.insert step.nodeId step.nodeType output)
        (elapsedMs + latencyMs)).after (started :: calls ++ [completed])
    | .error error =>
      let steps := steps ++ [record.fail error.stepMessage latencyMs endedAt]
      let failed := emit draws (endEvent index) (.stepFailed ref error.stepMessage latencyMs)
        ⟨run, steps⟩
      (failRun draws (startEvent (index + 1)) run steps error).after
        (started :: calls ++ [failed])

/-- Compile and execute a canvas. Failures are no errors of the caller: they end the run in the
failed state. -/
def execute (canvasId : String) (graph : Graph) (input : Record) : Execution :=
  let run := Run.started draws.runId canvasId input (draws.clock 0)
  let begin_ (totalSteps : Nat) : Occurrence :=
    emit draws 0 (.runStarted canvasId input totalSteps) ⟨run, []⟩
  match graph.plan with
  | .error error => (failRun draws 1 run [] (.planning error)).after [begin_ 0]
  | .ok plan =>
    (orchestrator.executeSteps draws run plan.steps 0 [] Outputs.empty 0).after [begin_ plan.size]

end Orchestrator

end Canvas
