import Canvas.Run.Execution
import Mathlib.Data.List.Basic

/-!
# The course of a run

Executing the steps of a plan goes on in one of three ways: no step is left, the first one
completes, or it fails. The equations for the latter two are all that the theorems on runs need to
know about a step. Those on what is emitted also say which report the run holds with each event.
-/

namespace Canvas

/-- The reference to a step of a plan in the events about it. -/
def Draws.refAt (draws : Draws) (index : Nat) (step : PlanStep) : StepRef :=
  ⟨draws.stepId index, step.nodeId, step.nodeType, step.label, index⟩

/-- The event that is emitted with the report that is held then, if something is emitted. -/
def Occurrence.emission? : Occurrence → Option (Event × RunReport)
  | emitted event held => some (event, held)
  | called .. => none

namespace Execution

/-- The events with the reports that are held when they are emitted, in order. -/
def emissions (execution : Execution) : List (Event × RunReport) :=
  execution.occurrences.filterMap Occurrence.emission?

theorem events_eq_map_emissions (execution : Execution) :
    execution.events = execution.emissions.map (·.1) := by
  have fst : Occurrence.event? = fun occurrence => occurrence.emission?.map (·.1) := by
    funext occurrence
    cases occurrence with
    | emitted event held => rfl
    | called type call => rfl
  rw [events, emissions, List.map_filterMap, fst]

/-- With every event of a run a report is held. -/
theorem exists_emission {execution : Execution} {k : Nat} {event : Event}
    (h : execution.events[k]? = some event) :
    ∃ held, execution.emissions[k]? = some (event, held) := by
  rw [events_eq_map_emissions, List.getElem?_map, Option.map_eq_some_iff] at h
  obtain ⟨⟨_, held⟩, emitted, rfl⟩ := h
  exact ⟨held, emitted⟩

variable (execution : Execution) (before : List Occurrence)

@[simp] theorem report_after : (execution.after before).report = execution.report := rfl

@[simp] theorem events_after :
    (execution.after before).events = before.filterMap Occurrence.event? ++ execution.events := by
  simp [events, after]

@[simp] theorem emissions_after :
    (execution.after before).emissions =
      before.filterMap Occurrence.emission? ++ execution.emissions := by
  simp [emissions, after]

end Execution

namespace Orchestrator

variable {orchestrator : Orchestrator} {draws : Draws} {run : Run}
variable {step : PlanStep} {rest : List PlanStep} {index elapsedMs latencyMs : Nat}
variable {steps : List StepRecord} {outputs : Outputs} {input output : Record}
variable {calls : List Occurrence} {error : RunError}

/-- The record of a step that was just dispatched. -/
def startedRecord (draws : Draws) (run : Run) (index : Nat) (step : PlanStep) (input : Record) :
    StepRecord :=
  .started (draws.stepId index) run.id step.nodeId step.nodeType step.label input
    (draws.clock (startEvent index))

/-- The record of a step that completed. -/
def completedRecord (draws : Draws) (run : Run) (index : Nat) (step : PlanStep)
    (input output : Record) (latencyMs : Nat) : StepRecord :=
  (startedRecord draws run index step input).complete output latencyMs
    (draws.clock (endEvent index))

/-- The record of a step that failed. -/
def failedRecord (draws : Draws) (run : Run) (index : Nat) (step : PlanStep) (input : Record)
    (error : RunError) (latencyMs : Nat) : StepRecord :=
  (startedRecord draws run index step input).fail error.stepMessage latencyMs
    (draws.clock (endEvent index))

/-- What happens when a step is dispatched: its first event, and the calls it makes. -/
def dispatched (draws : Draws) (run : Run) (index : Nat) (step : PlanStep) (input : Record)
    (steps : List StepRecord) (calls : List Occurrence) : List Occurrence :=
  emit draws (startEvent index) (.stepStarted (draws.refAt index step) input)
    ⟨run, steps ++ [startedRecord draws run index step input]⟩ :: calls

/-- A step that completes hands its output on to the steps behind it. -/
theorem executeSteps_of_ok
    (hinput : orchestrator.resolver.resolve step.nodeType outputs run.input = input)
    (hdispatch : orchestrator.dispatch index step input = (calls, .ok output, latencyMs)) :
    orchestrator.executeSteps draws run (step :: rest) index steps outputs elapsedMs =
      (orchestrator.executeSteps draws run rest (index + 1)
        (steps ++ [completedRecord draws run index step input output latencyMs])
        (outputs.insert step.nodeId step.nodeType output) (elapsedMs + latencyMs)).after
      (dispatched draws run index step input steps calls ++
        [emit draws (endEvent index) (.stepCompleted (draws.refAt index step) output latencyMs)
          ⟨run, steps ++ [completedRecord draws run index step input output latencyMs]⟩]) := by
  simp only [executeSteps, hinput, hdispatch]
  rfl

/-- A step that fails ends the run; the steps behind it are not looked at. -/
theorem executeSteps_of_error
    (hinput : orchestrator.resolver.resolve step.nodeType outputs run.input = input)
    (hdispatch : orchestrator.dispatch index step input = (calls, .error error, latencyMs)) :
    orchestrator.executeSteps draws run (step :: rest) index steps outputs elapsedMs =
      (failRun draws (startEvent (index + 1)) run
        (steps ++ [failedRecord draws run index step input error latencyMs]) error).after
      (dispatched draws run index step input steps calls ++
        [emit draws (endEvent index)
          (.stepFailed (draws.refAt index step) error.stepMessage latencyMs)
          ⟨run, steps ++ [failedRecord draws run index step input error latencyMs]⟩]) := by
  simp only [executeSteps, hinput, hdispatch]
  rfl

/-- A step that is dispatched emits its first event only, for calling an executor emits nothing. -/
theorem filterMap_emission?_dispatched {result : Except RunError Record}
    (hdispatch : orchestrator.dispatch index step input = (calls, result, latencyMs)) :
    (dispatched draws run index step input steps calls).filterMap Occurrence.emission? =
      [(⟨draws.clock (startEvent index), run.id, .stepStarted (draws.refAt index step) input⟩,
        ⟨run, steps ++ [startedRecord draws run index step input]⟩)] := by
  have none : calls.filterMap Occurrence.emission? = [] := by
    unfold dispatch at hdispatch
    split at hdispatch
    · obtain ⟨rfl, _⟩ := Prod.mk.inj hdispatch
      rfl
    · obtain ⟨rfl, _⟩ := Prod.mk.inj hdispatch
      rfl
  simp [dispatched, emit, Occurrence.emission?, none]

theorem emissions_executeSteps_of_ok
    (hinput : orchestrator.resolver.resolve step.nodeType outputs run.input = input)
    (hdispatch : orchestrator.dispatch index step input = (calls, .ok output, latencyMs)) :
    (orchestrator.executeSteps draws run (step :: rest) index steps outputs elapsedMs).emissions =
      (⟨draws.clock (startEvent index), run.id, .stepStarted (draws.refAt index step) input⟩,
        ⟨run, steps ++ [startedRecord draws run index step input]⟩) ::
      (⟨draws.clock (endEvent index), run.id,
          .stepCompleted (draws.refAt index step) output latencyMs⟩,
        ⟨run, steps ++ [completedRecord draws run index step input output latencyMs]⟩) ::
      (orchestrator.executeSteps draws run rest (index + 1)
        (steps ++ [completedRecord draws run index step input output latencyMs])
        (outputs.insert step.nodeId step.nodeType output) (elapsedMs + latencyMs)).emissions := by
  rw [executeSteps_of_ok hinput hdispatch, Execution.emissions_after, List.filterMap_append,
    filterMap_emission?_dispatched hdispatch]
  rfl

theorem emissions_executeSteps_of_error
    (hinput : orchestrator.resolver.resolve step.nodeType outputs run.input = input)
    (hdispatch : orchestrator.dispatch index step input = (calls, .error error, latencyMs)) :
    (orchestrator.executeSteps draws run (step :: rest) index steps outputs elapsedMs).emissions =
      (⟨draws.clock (startEvent index), run.id, .stepStarted (draws.refAt index step) input⟩,
        ⟨run, steps ++ [startedRecord draws run index step input]⟩) ::
      (⟨draws.clock (endEvent index), run.id,
          .stepFailed (draws.refAt index step) error.stepMessage latencyMs⟩,
        ⟨run, steps ++ [failedRecord draws run index step input error latencyMs]⟩) ::
      (failRun draws (startEvent (index + 1)) run
        (steps ++ [failedRecord draws run index step input error latencyMs]) error).emissions := by
  rw [executeSteps_of_error hinput hdispatch, Execution.emissions_after, List.filterMap_append,
    filterMap_emission?_dispatched hdispatch]
  rfl

theorem events_executeSteps_nil :
    (orchestrator.executeSteps draws run [] index steps outputs elapsedMs).events =
      [⟨draws.clock (startEvent index), run.id,
        .runCompleted (outputs.final?.getD Dict.empty) elapsedMs⟩] := rfl

theorem events_executeSteps_of_ok
    (hinput : orchestrator.resolver.resolve step.nodeType outputs run.input = input)
    (hdispatch : orchestrator.dispatch index step input = (calls, .ok output, latencyMs)) :
    (orchestrator.executeSteps draws run (step :: rest) index steps outputs elapsedMs).events =
      ⟨draws.clock (startEvent index), run.id, .stepStarted (draws.refAt index step) input⟩ ::
      ⟨draws.clock (endEvent index), run.id,
        .stepCompleted (draws.refAt index step) output latencyMs⟩ ::
      (orchestrator.executeSteps draws run rest (index + 1)
        (steps ++ [completedRecord draws run index step input output latencyMs])
        (outputs.insert step.nodeId step.nodeType output) (elapsedMs + latencyMs)).events := by
  rw [Execution.events_eq_map_emissions, Execution.events_eq_map_emissions,
    emissions_executeSteps_of_ok hinput hdispatch]
  rfl

theorem events_executeSteps_of_error
    (hinput : orchestrator.resolver.resolve step.nodeType outputs run.input = input)
    (hdispatch : orchestrator.dispatch index step input = (calls, .error error, latencyMs)) :
    (orchestrator.executeSteps draws run (step :: rest) index steps outputs elapsedMs).events =
      [⟨draws.clock (startEvent index), run.id, .stepStarted (draws.refAt index step) input⟩,
        ⟨draws.clock (endEvent index), run.id,
          .stepFailed (draws.refAt index step) error.stepMessage latencyMs⟩,
        ⟨draws.clock (startEvent (index + 1)), run.id, .runFailed error.message⟩] := by
  rw [Execution.events_eq_map_emissions, emissions_executeSteps_of_error hinput hdispatch]
  rfl

end Orchestrator

end Canvas
