import Canvas.Proofs.Run.Dispatch
import Canvas.Proofs.Stream.Tracer

/-!
# Replaying the events of a run

A tracer rebuilds a run from its events, without the records that the run keeps of itself. After the
first event each one turns what the run held before it into what the run holds with it when it is
applied as a tracer does: `Retold` states this of a list of emissions. So a tracer that held the
same as the run before some emissions holds the same after each of them.

Events name steps by their ids. If two steps had one id, only what is told about the run itself
would be right. Hence `Retold` leaves open how much of a report is looked at.
-/

namespace Canvas

/-- Whether each event is about the run with an id, does not start it, and tells what came to be
held with it from what was held before, as far as one sees of it. -/
inductive Retold {α : Type} (sees : RunReport → α) (id : Uuid) :
    RunReport → List (Event × RunReport) → Prop
  | nil {before : RunReport} : Retold sees id before []
  | cons {before held : RunReport} {event : Event} {rest : List (Event × RunReport)}
      (own : event.runId = id) (later : ¬ event.payload.StartsRun)
      (told : ∀ traced, sees traced = sees before →
        sees (Tracer.apply event traced) = sees held)
      (tail : Retold sees id held rest) :
      Retold sees id before ((event, held) :: rest)

/-- A tracer that holds what a run held before some emissions follows it through all of them. -/
theorem Retold.find?_recordAll {α : Type} {sees : RunReport → α} {id : Uuid}
    {before held : RunReport} {event : Event} {emissions : List (Event × RunReport)}
    {tracer : Tracer} {traced : Traced} {j : Nat} (h : Retold sees id before emissions)
    (known : tracer.find? id = some traced) (same : sees traced = sees before)
    (hj : emissions[j]? = some (event, held)) :
    ∃ later, (tracer.recordAll ((emissions.take (j + 1)).map (·.1))).find? id = some later ∧
      sees later = sees held := by
  induction h generalizing tracer traced j with
  | nil => simp at hj
  | @cons before next first rest own later told tail ih =>
      have recorded : (tracer.record first).find? id = some (Tracer.apply first traced) := by
        have found := tracer.find?_record later
        rw [own, known] at found
        exact found
      cases j with
      | zero =>
          obtain ⟨rfl, rfl⟩ := Prod.mk.inj (Option.some.inj hj)
          exact ⟨_, recorded, told traced same⟩
      | succ j => exact ih recorded (told traced same) hj

theorem Retold.cons_exact {runId : Uuid} {before held : RunReport} {event : Event}
    {rest : List (Event × RunReport)} (own : event.runId = runId)
    (later : ¬ event.payload.StartsRun) (told : Tracer.apply event before = held)
    (tail : Retold id runId held rest) : Retold id runId before ((event, held) :: rest) := by
  refine .cons own later (fun traced same => ?_) tail
  obtain rfl : traced = before := same
  exact told

/-- Whether a report is one of a run that is not over: the run is as it began, and no step before
the last is open. -/
structure RunReport.Underway (report : RunReport) (run : Run) : Prop where
  run_eq : report.run = run
  settled : ∀ step ∈ report.steps.dropLast, step.status = .completed

/-- Whether emissions lead up to a report: it is held with the last of them, and the run is not over
before. -/
def LeadsTo (run : Run) (report : RunReport) (emissions : List (Event × RunReport)) : Prop :=
  ∃ before event, emissions = before ++ [(event, report)] ∧
    ∀ emission ∈ before, emission.2.Underway run

theorem LeadsTo.cons {run : Run} {held report : RunReport} {emissions : List (Event × RunReport)}
    (h : LeadsTo run report emissions) (underway : held.Underway run) (event : Event) :
    LeadsTo run report ((event, held) :: emissions) := by
  obtain ⟨before, last, rfl, all⟩ := h
  exact ⟨(event, held) :: before, last, rfl, List.forall_mem_cons.2 ⟨underway, all⟩⟩

/-- The report is held with the last emission. -/
theorem LeadsTo.getLast {run : Run} {report : RunReport} {emissions : List (Event × RunReport)}
    (h : LeadsTo run report emissions) :
    ∃ j event, emissions[j]? = some (event, report) ∧ emissions.length = j + 1 := by
  obtain ⟨before, last, rfl, _⟩ := h
  refine ⟨before.length, last, ?_, by simp⟩
  rw [List.getElem?_append_right (Nat.le_refl _), Nat.sub_self]
  rfl

theorem LeadsTo.underway {run : Run} {held report : RunReport} {event : Event}
    {emissions : List (Event × RunReport)} {j : Nat} (h : LeadsTo run report emissions)
    (hj : emissions[j]? = some (event, held)) (early : j + 1 < emissions.length) :
    held.Underway run := by
  obtain ⟨before, last, rfl, all⟩ := h
  rw [List.length_append, List.length_singleton] at early
  rw [List.getElem?_append_left (Nat.lt_of_succ_lt_succ early)] at hj
  exact all _ (List.mem_of_getElem? hj)

namespace Orchestrator

section Steps

variable {orchestrator : Orchestrator} {draws : Draws} {run : Run}
variable {step : PlanStep} {rest : List PlanStep} {index elapsedMs latencyMs : Nat}
variable {steps : List StepRecord} {outputs : Outputs} {input output : Record}
variable {error : RunError} {record : StepRecord}

theorem underway_concat (completed : ∀ step ∈ steps, step.status = .completed) :
    RunReport.Underway ⟨run, steps ++ [record]⟩ run := by
  refine ⟨rfl, ?_⟩
  change ∀ step ∈ (steps ++ [record]).dropLast, step.status = .completed
  rwa [List.dropLast_concat]

/-- The event with which a run fails tells how it is left. -/
theorem retold_failRun (number : Nat) :
    Retold id run.id ⟨run, steps⟩ (failRun draws number run steps error).emissions :=
  .cons_exact rfl id rfl .nil

theorem retold_run_failRun (number : Nat) :
    Retold RunReport.run run.id ⟨run, steps⟩ (failRun draws number run steps error).emissions := by
  refine .cons rfl id (fun traced same => ?_) .nil
  exact congrArg (Run.fail · error.message (draws.clock number)) same

theorem leadsTo_failRun (number : Nat) :
    LeadsTo run (failRun draws number run steps error).report
      (failRun draws number run steps error).emissions :=
  ⟨[], _, rfl, by simp⟩

/-- An event that ends a step changes its record in place, if no step before has its id. -/
theorem apply_ended {ended : Event} (change : StepRecord → StepRecord)
    (fresh : draws.stepId index ∉ steps.map (·.id))
    (tells : ∀ traced, Tracer.apply ended traced =
      { traced with steps := Tracer.updateStep traced.steps (draws.stepId index) change }) :
    Tracer.apply ended ⟨run, steps ++ [startedRecord draws run index step input]⟩ =
      ⟨run, steps ++ [change (startedRecord draws run index step input)]⟩ := by
  have last := Tracer.updateStep_last (startedRecord draws run index step input) fresh change
  rw [tells]
  exact congrArg (RunReport.mk run) last

theorem not_mem_ids_of_isPrefix {all : List StepRecord} (h : steps ++ [record] <+: all)
    (distinct : (all.map (·.id)).Nodup) : record.id ∉ steps.map (·.id) := by
  have first : ((steps ++ [record]).map (·.id)).Nodup := distinct.sublist (h.sublist.map _)
  rw [List.map_append] at first
  intro mem
  exact List.disjoint_of_nodup_append first mem (List.mem_singleton_self _)

/-- The events of steps tell their records from those of the steps before on. -/
theorem retold_executeSteps (remaining : List PlanStep) (index : Nat) (steps : List StepRecord)
    (outputs : Outputs) (elapsedMs : Nat) (execution : Execution)
    (h : orchestrator.executeSteps draws run remaining index steps outputs elapsedMs = execution)
    (distinct : (execution.report.steps.map (·.id)).Nodup) :
    Retold id run.id ⟨run, steps⟩ execution.emissions := by
  induction remaining generalizing index steps outputs elapsedMs execution with
  | nil =>
      subst h
      exact .cons_exact rfl id rfl .nil
  | cons step rest ih =>
      subst h
      rcases hdispatch : orchestrator.dispatch index step
        (orchestrator.resolver.resolve step.nodeType outputs run.input)
        with ⟨calls, error | output, latencyMs⟩
      · rw [executeSteps_of_error rfl hdispatch] at distinct
        have fresh : draws.stepId index ∉ steps.map (·.id) :=
          not_mem_ids_of_isPrefix (List.prefix_refl _) distinct
        rw [emissions_executeSteps_of_error rfl hdispatch]
        refine .cons_exact rfl id rfl (.cons_exact rfl id ?_ (retold_failRun _))
        exact apply_ended (·.fail error.stepMessage latencyMs (draws.clock (endEvent index))) fresh
          fun _ => rfl
      · rw [executeSteps_of_ok rfl hdispatch] at distinct
        -- The report begins with the records up to this step, so its id is new among them.
        obtain ⟨records, report, _⟩ := executeSteps_dispatches rest (index + 1) _ _ _ _ rfl
        have fresh : draws.stepId index ∉ steps.map (·.id) :=
          not_mem_ids_of_isPrefix ⟨records, report.symm⟩ distinct
        rw [emissions_executeSteps_of_ok rfl hdispatch]
        refine .cons_exact rfl id rfl (.cons_exact rfl id ?_ (ih _ _ _ _ _ rfl distinct))
        exact apply_ended (·.complete output latencyMs (draws.clock (endEvent index))) fresh
          fun _ => rfl

/-- Events that leave the run as it is tell so, whatever they tell about steps. -/
theorem retold_run_cons {before held : RunReport} {event : Event}
    {rest : List (Event × RunReport)} (own : event.runId = run.id)
    (later : ¬ event.payload.StartsRun)
    (told : ∀ traced, (Tracer.apply event traced).run = traced.run)
    (same : before.run = held.run) (tail : Retold RunReport.run run.id held rest) :
    Retold RunReport.run run.id before ((event, held) :: rest) :=
  .cons own later (fun traced seen => (told traced).trans (seen.trans same)) tail

/-- The events of steps tell how the run stands, even if steps have the same ids. -/
theorem retold_run_executeSteps (remaining : List PlanStep) (index : Nat)
    (steps : List StepRecord) (outputs : Outputs) (elapsedMs : Nat) (execution : Execution)
    (h : orchestrator.executeSteps draws run remaining index steps outputs elapsedMs = execution) :
    Retold RunReport.run run.id ⟨run, steps⟩ execution.emissions := by
  induction remaining generalizing index steps outputs elapsedMs execution with
  | nil =>
      subst h
      refine .cons rfl id (fun traced same => ?_) .nil
      exact congrArg
        (Run.complete · (outputs.final?.getD Dict.empty) (draws.clock (startEvent index))) same
  | cons step rest ih =>
      subst h
      rcases hdispatch : orchestrator.dispatch index step
        (orchestrator.resolver.resolve step.nodeType outputs run.input)
        with ⟨calls, error | output, latencyMs⟩
      · rw [emissions_executeSteps_of_error rfl hdispatch]
        exact retold_run_cons rfl id (fun _ => rfl) rfl
          (retold_run_cons rfl id (fun _ => rfl) rfl (retold_run_failRun _))
      · rw [emissions_executeSteps_of_ok rfl hdispatch]
        exact retold_run_cons rfl id (fun _ => rfl) rfl
          (retold_run_cons rfl id (fun _ => rfl) rfl (ih _ _ _ _ _ rfl))

/-- The events of steps lead up to the report, if the steps before completed. -/
theorem leadsTo_executeSteps (remaining : List PlanStep) (index : Nat) (steps : List StepRecord)
    (outputs : Outputs) (elapsedMs : Nat) (execution : Execution)
    (h : orchestrator.executeSteps draws run remaining index steps outputs elapsedMs = execution)
    (completed : ∀ step ∈ steps, step.status = .completed) :
    LeadsTo run execution.report execution.emissions := by
  induction remaining generalizing index steps outputs elapsedMs execution with
  | nil =>
      subst h
      exact ⟨[], _, rfl, by simp⟩
  | cons step rest ih =>
      subst h
      rcases hdispatch : orchestrator.dispatch index step
        (orchestrator.resolver.resolve step.nodeType outputs run.input)
        with ⟨calls, error | output, latencyMs⟩
      · rw [emissions_executeSteps_of_error rfl hdispatch, executeSteps_of_error rfl hdispatch]
        exact ((leadsTo_failRun _).cons (underway_concat completed) _).cons
          (underway_concat completed) _
      · rw [emissions_executeSteps_of_ok rfl hdispatch, executeSteps_of_ok rfl hdispatch]
        refine LeadsTo.cons (LeadsTo.cons (ih _ _ _ _ _ rfl ?_) (underway_concat completed) _)
          (underway_concat completed) _
        intro other hother
        rcases List.mem_append.1 hother with hother | hother
        · exact completed other hother
        · rw [List.mem_singleton.1 hother]
          rfl

end Steps

end Orchestrator

/-- A run without its times. -/
def Run.untimed (run : Run) : Run := { run with startedAt := default, completedAt := none }

/-- The record of a step without its times. -/
def StepRecord.untimed (step : StepRecord) : StepRecord :=
  { step with startedAt := default, completedAt := none }

namespace Tracer

/-- Whether a tracer shows a run and its steps as a report has them, but for the times. -/
structure Shows (tracer : Tracer) (id : Uuid) (report : RunReport) : Prop where
  run : (tracer.run? id).map Run.untimed = some report.run.untimed
  steps : (tracer.steps id).map StepRecord.untimed = report.steps.map StepRecord.untimed

/-- Whether a tracer shows a run that is not over. -/
structure ShowsRunning (tracer : Tracer) (id : Uuid) : Prop where
  run : ∃ run, tracer.run? id = some run ∧ run.status = .running ∧ run.output = none ∧
    run.error = none
  steps : ∀ step ∈ (tracer.steps id).dropLast, step.status = .completed

variable {tracer : Tracer} {id : Uuid} {report : RunReport}

theorem shows_of_find? (h : tracer.find? id = some report) : tracer.Shows id report := by
  refine ⟨?_, ?_⟩
  · rw [run?, h]
    rfl
  · rw [Tracer.steps, h]
    rfl

theorem showsRunning_of_find? {canvasId : String} {input : Record} {startedAt : Timestamp}
    (h : tracer.find? id = some report)
    (underway : report.Underway (.started id canvasId input startedAt)) :
    tracer.ShowsRunning id := by
  refine ⟨⟨report.run, ?_, ?_⟩, ?_⟩
  · rw [run?, h]
    rfl
  · rw [underway.run_eq]
    exact ⟨rfl, rfl, rfl⟩
  · rw [Tracer.steps, h]
    exact underway.settled

end Tracer

namespace Orchestrator

variable (orchestrator : Orchestrator) (draws : Draws) (canvasId : String) (graph : Graph)
  (input : Record)

/-- A run emits first that it starts. What it emits then leads up to its report, tells how the run
stands, and tells also the steps if they have different ids. -/
theorem emissions_execute (execution : Execution)
    (h : orchestrator.execute draws canvasId graph input = execution) :
    ∃ totalSteps rest,
      execution.emissions =
        (⟨draws.clock 0, draws.runId, .runStarted canvasId input totalSteps⟩,
          ⟨begunRun draws canvasId input, []⟩) :: rest ∧
      LeadsTo (begunRun draws canvasId input) execution.report rest ∧
      Retold RunReport.run draws.runId ⟨begunRun draws canvasId input, []⟩ rest ∧
      ((execution.report.steps.map (·.id)).Nodup →
        Retold id draws.runId ⟨begunRun draws canvasId input, []⟩ rest) := by
  have own : draws.runId = (begunRun draws canvasId input).id := rfl
  cases planned : graph.plan with
  | error error =>
      rw [execute_of_planning_error orchestrator draws canvasId input planned] at h
      subst h
      refine ⟨0, _, rfl, leadsTo_failRun 1, ?_, fun _ => ?_⟩
      · rw [own]
        exact retold_run_failRun 1
      · rw [own]
        exact retold_failRun 1
  | ok plan =>
      rw [execute_of_plan orchestrator draws canvasId input planned] at h
      subst h
      refine ⟨plan.size, _, rfl, ?_, ?_, fun distinct => ?_⟩
      · exact leadsTo_executeSteps plan.steps 0 [] Outputs.empty 0 _ rfl (by simp)
      · rw [own]
        exact retold_run_executeSteps plan.steps 0 [] Outputs.empty 0 _ rfl
      · exact retold_executeSteps plan.steps 0 [] Outputs.empty 0 _ rfl distinct

variable {orchestrator draws canvasId graph input}

/-- A tracer that did not hold the run holds, after each event of its stream, what the run itself
holds when it emits the event; the steps must have different ids for it to hold these, too. -/
theorem find?_recordAll_execute {tracer : Tracer} {execution : Execution} {j : Nat} {event : Event}
    {held : RunReport} (consistent : tracer.Consistent) (fresh : tracer.find? draws.runId = none)
    (h : orchestrator.execute draws canvasId graph input = execution)
    (hj : execution.emissions[j]? = some (event, held)) :
    ∃ traced, (tracer.recordAll (execution.events.take (j + 1))).find? draws.runId = some traced ∧
      traced.run = held.run ∧
      ((execution.report.steps.map (·.id)).Nodup → traced = held) := by
  obtain ⟨totalSteps, rest, emissions, _, run, steps⟩ :=
    emissions_execute orchestrator draws canvasId graph input execution h
  rw [Execution.events_eq_map_emissions, ← List.map_take, emissions, List.take_succ_cons]
  rw [emissions] at hj
  have begun : (tracer.record ⟨draws.clock 0, draws.runId, .runStarted canvasId input
      totalSteps⟩).find? draws.runId = some ⟨begunRun draws canvasId input, []⟩ :=
    consistent.find?_enrol fresh
  cases j with
  | zero =>
      obtain ⟨rfl, rfl⟩ := Prod.mk.inj (Option.some.inj hj)
      exact ⟨_, begun, rfl, fun _ => rfl⟩
  | succ j =>
      obtain ⟨traced, found, same⟩ := run.find?_recordAll begun rfl hj
      refine ⟨traced, found, same, fun distinct => ?_⟩
      obtain ⟨other, again, whole⟩ := (steps distinct).find?_recordAll begun rfl hj
      exact (Option.some.inj (found.symm.trans again)).trans whole

/-- A tracer that recorded whatever events, but does not hold a run, follows the run when it records
its stream: after each event it shows what the run itself holds then, before the last event a run
that is not over, and in the end the report. -/
theorem recordAll_follows_execute {capacity : Nat} {history : List Event} {tracer : Tracer}
    {execution : Execution} (recorded : (Tracer.ofCapacity capacity).recordAll history = tracer)
    (fresh : tracer.find? draws.runId = none)
    (h : orchestrator.execute draws canvasId graph input = execution)
    (distinct : (execution.report.steps.map (·.id)).Nodup) :
    (∀ j event, execution.events[j]? = some event →
      ∃ held, execution.emissions[j]? = some (event, held) ∧
        (tracer.recordAll (execution.events.take (j + 1))).Shows draws.runId held) ∧
    (∀ j, 0 < j → j < execution.events.length →
      (tracer.recordAll (execution.events.take j)).ShowsRunning draws.runId) ∧
    (tracer.recordAll execution.events).Shows draws.runId execution.report := by
  have consistent : tracer.Consistent := by
    rw [← recorded]
    exact (Tracer.consistent_ofCapacity capacity).recordAll history
  have follows {j : Nat} {event : Event} {held : RunReport}
      (hj : execution.emissions[j]? = some (event, held)) :
      (tracer.recordAll (execution.events.take (j + 1))).find? draws.runId = some held := by
    obtain ⟨traced, found, -, same⟩ := find?_recordAll_execute consistent fresh h hj
    rw [found, same distinct]
  have leads : LeadsTo (begunRun draws canvasId input) execution.report execution.emissions := by
    obtain ⟨_, rest, emissions, leads, _⟩ :=
      emissions_execute orchestrator draws canvasId graph input execution h
    rw [emissions]
    exact leads.cons ⟨rfl, by simp⟩ _
  have size : execution.events.length = execution.emissions.length := by
    rw [Execution.events_eq_map_emissions, List.length_map]
  refine ⟨?_, ?_, ?_⟩
  · intro j event hevent
    rw [Execution.events_eq_map_emissions, List.getElem?_map, Option.map_eq_some_iff] at hevent
    obtain ⟨⟨_, held⟩, hj, rfl⟩ := hevent
    exact ⟨held, hj, Tracer.shows_of_find? (follows hj)⟩
  · intro j positive early
    obtain ⟨i, rfl⟩ := Nat.exists_eq_succ_of_ne_zero (Nat.ne_of_gt positive)
    rw [size] at early
    have hi := List.getElem?_eq_getElem (Nat.lt_of_succ_lt early)
    exact Tracer.showsRunning_of_find? (follows hi) (leads.underway hi early)
  · obtain ⟨j, event, hj, last⟩ := leads.getLast
    have all : execution.events.take (j + 1) = execution.events :=
      List.take_of_length_le (by omega)
    rw [← all]
    exact Tracer.shows_of_find? (follows hj)

/-- The answer has no executor, so the run fails with its second step. The tracer forgets another
run for it, since there is room for one only. -/
theorem recordAll_follows_failing_run :
    let graph : Graph :=
      ⟨[.ofId "question" .query, .ofId "answer" .generate], [⟨"e1", "question", "answer"⟩]⟩
    let orchestrator : Orchestrator := ⟨Registry.empty.register (.echo .query), Resolver.standard⟩
    let draws : Draws := ⟨.nil, fun n => ⟨n⟩, fun _ => default⟩
    let tracer : Tracer :=
      (Tracer.ofCapacity 1).recordAll [⟨default, ⟨7⟩, .runStarted "canvas" Dict.empty 2⟩]
    let execution := orchestrator.execute draws "canvas" graph Dict.empty
    tracer.find? draws.runId = none ∧ (execution.report.steps.map (·.id)).Nodup ∧
      execution.events.length = 6 ∧
      (tracer.recordAll (execution.events.take 5)).ShowsRunning draws.runId ∧
      (tracer.recordAll execution.events).Shows draws.runId execution.report := by
  intro graph orchestrator draws tracer execution
  have fresh : tracer.find? draws.runId = none := rfl
  have distinct : (execution.report.steps.map (·.id)).Nodup := by decide
  have size : execution.events.length = 6 := by decide
  obtain ⟨_, early, final⟩ := recordAll_follows_execute rfl fresh rfl distinct
  exact ⟨fresh, distinct, size, early 5 (by decide) (by rw [size]; decide), final⟩

end Orchestrator

end Canvas
