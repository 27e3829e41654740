import Canvas.Proofs.Graph.Entries
import Canvas.Proofs.Run.Concurrency
import Canvas.Proofs.Run.Outcome
import Canvas.Proofs.Run.Replay

/-!
# Runs one after the other

A tracer that records one complete run after the other gains each of them with all of its events,
and loses the one that it gained first when there is no room. So in the end it holds the last of
them, and of each what its own report says. If no run starts before the one that is executed before
it, the runs of a canvas are listed in the reverse order of their execution.
-/

namespace Canvas

/-- Whether the ids that are drawn for the first steps of a run differ. Ids are drawn at random from
so many that no one is ever drawn again. -/
def Draws.Differ (draws : Draws) (count : Nat) : Prop :=
  ((List.range count).map draws.stepId).Nodup

namespace Commission

/-- The report of the run. -/
def report (commission : Commission) : RunReport := commission.execution.report

/-- Whether the steps of the run have different ids. -/
def DistinctSteps (commission : Commission) : Prop := (commission.report.steps.map (·.id)).Nodup

variable (commission : Commission)

theorem exists_leftRun :
    ∃ number outputs failure, commission.report.run =
      Orchestrator.leftRun commission.draws commission.begunRun number outputs failure := by
  rcases commission.execution_cases with ⟨error, failed⟩ | ⟨plan, planned, -⟩
  · exact ⟨1, Outputs.empty, some (.planning error), congrArg (·.report.run) failed⟩
  · exact ⟨_, _, _, (Orchestrator.execute_dispatches _ _ _ _ planned _ rfl).2⟩

/-- However a run ends, its report has what it was started with. -/
theorem report_run :
    commission.report.run.id = commission.runId ∧
    commission.report.run.canvasId = commission.canvasId ∧
    commission.report.run.startedAt = commission.draws.clock 0 := by
  obtain ⟨number, outputs, failure, left⟩ := commission.exists_leftRun
  rw [left]
  cases failure with
  | none => exact ⟨rfl, rfl, rfl⟩
  | some error => exact ⟨rfl, rfl, rfl⟩

/-- The report has at most one step for each node, and those that completed are those with an
output. -/
theorem report_steps :
    (commission.report.steps.map (·.nodeId)).Nodup ∧
    ∀ step ∈ commission.report.steps, step.status = .completed ↔ step.output.isSome := by
  rcases commission.execution_cases with ⟨error, failed⟩ | ⟨plan, planned, -⟩
  · have none : commission.report.steps = [] := congrArg (·.report.steps) failed
    rw [none]
    exact ⟨.nil, by simp⟩
  · have dispatches := (Orchestrator.execute_dispatches commission.orchestrator commission.draws
      commission.canvasId commission.input planned _ rfl).1
    exact ⟨(Graph.nodup_nodeIds planned).sublist dispatches.nodeIds_isPrefix.sublist,
      dispatches.completed_iff⟩

/-- If the ids that are drawn for steps differ, so do those of the steps of the run, of which there
are no more than nodes. -/
theorem distinctSteps_of_differ
    (differ : commission.draws.Differ commission.graph.nodes.length) : commission.DistinctSteps := by
  rcases commission.execution_cases with ⟨error, failed⟩ | ⟨plan, planned, -⟩
  · have none : commission.report.steps = [] := congrArg (·.report.steps) failed
    rw [DistinctSteps, none]
    exact .nil
  · have dispatches := (Orchestrator.execute_dispatches commission.orchestrator commission.draws
      commission.canvasId commission.input planned _ rfl).1
    have nodes := (Graph.plan_compiles planned).nodes.length_eq
    rw [List.length_map] at nodes
    have few : commission.report.steps.length ≤ commission.graph.nodes.length :=
      nodes ▸ dispatches.length_le
    have ids : commission.report.steps.map (·.id) =
        (List.range commission.report.steps.length).map commission.draws.stepId := by
      rw [List.range_eq_range']
      exact dispatches.ids
    rw [DistinctSteps, ids]
    exact differ.sublist ((List.range_sublist.2 few).map _)

/-- The output of a step that completed is that of the first step of its node. -/
theorem exists_output_of_completed {step : StepRecord} (mem : step ∈ commission.report.steps)
    (completed : step.status = .completed) :
    ∃ output, step.output = some output ∧
      (commission.report.steps.find? (·.nodeId = step.nodeId)).bind (·.output) = some output := by
  obtain ⟨distinct, answered⟩ := commission.report_steps
  obtain ⟨output, houtput⟩ := Option.isSome_iff_exists.1 ((answered step mem).1 completed)
  refine ⟨output, houtput, ?_⟩
  rw [(find?_key_eq_some_iff distinct).2 ⟨mem, rfl⟩]
  exact houtput

theorem output_eq_none {nodeId : String}
    (incomplete : ∀ step ∈ commission.report.steps, step.nodeId = nodeId →
      step.status ≠ .completed) :
    (commission.report.steps.find? (·.nodeId = nodeId)).bind (·.output) = none := by
  cases found : commission.report.steps.find? (·.nodeId = nodeId) with
  | none => rfl
  | some step =>
      have mem := List.mem_of_find?_eq_some found
      have own : step.nodeId = nodeId := by simpa using List.find?_some found
      have unanswered := mt (commission.report_steps.2 step mem).2 (incomplete step mem own)
      exact Option.not_isSome_iff_eq_none.1 unanswered

/-- All events of a run are its own, and none of them is that of another. -/
theorem filter_events (id : Uuid) :
    commission.events.filter (·.runId = id) =
      if commission.runId = id then commission.events else [] := by
  split
  · rename_i same
    exact List.filter_eq_self.2 fun event hevent =>
      decide_eq_true ((commission.runId_of_mem_events hevent).trans same)
  · rename_i differs
    refine List.filter_eq_nil_iff.2 fun event hevent => ?_
    simpa [commission.runId_of_mem_events hevent] using differs

variable {tracer : Tracer}

/-- A tracer that records all events of a run holds it as its report has it; the steps of the report
must have different ids for it to hold these, too. -/
theorem find?_recordAll_events (consistent : tracer.Consistent)
    (fresh : tracer.find? commission.runId = none) :
    ∃ traced, (tracer.recordAll commission.events).find? commission.runId = some traced ∧
      traced.run = commission.report.run ∧
      (commission.DistinctSteps → traced = commission.report) := by
  obtain ⟨_, told, emissions, leads, _⟩ := Orchestrator.emissions_execute commission.orchestrator
    commission.draws commission.canvasId commission.graph commission.input _ rfl
  have leads : LeadsTo commission.begunRun commission.report commission.execution.emissions := by
    rw [execution, emissions]
    exact leads.cons ⟨rfl, by simp⟩ _
  obtain ⟨j, last, hj, size⟩ := leads.getLast
  have all : commission.events.take (j + 1) = commission.events := by
    refine List.take_of_length_le ?_
    rw [Commission.events, Execution.events_eq_map_emissions, List.length_map, size]
  rw [← all]
  exact Orchestrator.find?_recordAll_execute consistent fresh rfl hj

end Commission

namespace Tracer

/-- Whether a tracer comes to hold one more run, for which it forgets as many of those it held
before as it must, the first ones first. -/
structure Gains (tracer later : Tracer) (id : Uuid) : Prop where
  fresh : tracer.find? id = none
  held : later.find? id ≠ none
  queue : later.admitted = (tracer.admitted ++ [id]).rtake tracer.capacity
  others : ∀ other ≠ id, later.find? other ≠ none → later.find? other = tracer.find? other

/-- A tracer that records all events of a run gains it. -/
theorem gains_recordAll {tracer : Tracer} {commission : Commission} (consistent : tracer.Consistent)
    (fresh : tracer.find? commission.runId = none) :
    tracer.Gains (tracer.recordAll commission.events) commission.runId := by
  refine ⟨fresh, ?_, ?_, fun other differs held => ?_⟩
  · obtain ⟨traced, found, -⟩ := commission.find?_recordAll_events consistent fresh
    rw [found]
    exact Option.some_ne_none traced
  · rw [consistent.admitted_recordAll, admissions_eq_startedIds, commission.startedIds_events]
    · rw [commission.startedIds_events]
      exact List.nodup_singleton _
    · rw [commission.startedIds_events]
      exact List.forall_mem_singleton.2 fresh
  · obtain ⟨traced, found⟩ := Option.ne_none_iff_exists'.1 held
    have foreign : ∀ event ∈ commission.events, event.runId ≠ other := fun event hevent same =>
      differs (same.symm.trans (commission.runId_of_mem_events hevent))
    obtain ⟨earlier, kept, told⟩ := exists_find?_of_find?_recordAll
      (fun event hevent same => absurd same (foreign event hevent)) found
    rw [commission.filter_events, if_neg (Ne.symm differs)] at told
    rw [found, kept, told]
    rfl

end Tracer

namespace Commission

/-- The events of runs that are executed one after the other. -/
def history (commissions : List Commission) : List Event := commissions.flatMap events

variable {commission : Commission} {commissions : List Commission} {capacity : Nat}

theorem startedIds_history (commissions : List Commission) :
    Tracer.startedIds (history commissions) = commissions.map (·.runId) := by
  induction commissions with
  | nil => rfl
  | cons first rest ih =>
      rw [history, List.flatMap_cons, Tracer.startedIds_append, first.startedIds_events]
      exact congrArg _ ih

/-- The events of one of the runs are found again, if the runs have different ids. -/
theorem filter_history (distinct : (commissions.map (·.runId)).Nodup)
    (mem : commission ∈ commissions) :
    (history commissions).filter (·.runId = commission.runId) = commission.events := by
  induction commissions with
  | nil => exact absurd mem List.not_mem_nil
  | cons first rest ih =>
      obtain ⟨new, distinct⟩ := List.nodup_cons.1 distinct
      rw [history, List.flatMap_cons, List.filter_append, filter_events]
      rcases List.mem_cons.1 mem with rfl | mem
      · have none : (rest.flatMap events).filter (·.runId = commission.runId) = [] := by
          refine List.filter_eq_nil_iff.2 fun event hevent same => ?_
          obtain ⟨other, hother, own⟩ := List.mem_flatMap.1 hevent
          have id : other.runId = commission.runId :=
            (other.runId_of_mem_events own).symm.trans (of_decide_eq_true same)
          exact new (List.mem_map.2 ⟨other, hother, id⟩)
        rw [if_pos rfl, none, List.append_nil]
      · have differs : first.runId ≠ commission.runId := by
          intro same
          exact new (List.mem_map.2 ⟨commission, mem, same.symm⟩)
        rw [if_neg differs, List.nil_append]
        exact ih distinct mem

/-- The runs that a tracer remembers: the last of those that were executed. -/
def remembered (commissions : List Commission) (capacity : Nat) : List Commission :=
  commissions.rtake (max capacity 1)

theorem remembered_sublist (commissions : List Commission) (capacity : Nat) :
    (remembered commissions capacity).Sublist commissions := List.drop_sublist _ _

/-- The tracer that recorded the events of runs that were executed one after the other. -/
def traced (commissions : List Commission) (capacity : Nat) : Tracer :=
  (Tracer.ofCapacity capacity).recordAll (history commissions)

theorem consistent_traced (commissions : List Commission) (capacity : Nat) :
    (traced commissions capacity).Consistent :=
  (Tracer.consistent_ofCapacity capacity).recordAll (history commissions)

theorem admitted_traced (distinct : (commissions.map (·.runId)).Nodup) :
    (traced commissions capacity).admitted = (remembered commissions capacity).map (·.runId) := by
  rw [traced, Tracer.admitted_recordAll_of_once, startedIds_history, remembered, List.rtake,
    List.rtake, List.map_drop, List.length_map]
  rwa [startedIds_history]

/-- A run that is remembered is held as its report has it. -/
theorem find?_traced (distinct : (commissions.map (·.runId)).Nodup)
    (mem : commission ∈ remembered commissions capacity) :
    ∃ held, (traced commissions capacity).find? commission.runId = some held ∧
      held.run = commission.report.run ∧
      (commission.DistinctSteps → held = commission.report) := by
  have once : (Tracer.startedIds (history commissions)).Nodup := by rwa [startedIds_history]
  have holds : (traced commissions capacity).find? commission.runId ≠ none := by
    rw [(consistent_traced commissions capacity).find?_ne_none_iff, admitted_traced distinct]
    exact List.mem_map_of_mem mem
  -- No other run matters to this one, so a tracer that records its events alone holds the same.
  have alone := Tracer.find?_recordAll_eq_alone once holds 1
  rw [filter_history distinct ((remembered_sublist commissions capacity).subset mem)] at alone
  rw [traced, alone]
  exact commission.find?_recordAll_events (Tracer.consistent_ofCapacity 1) rfl

/-- No other run is held. -/
theorem find?_traced_eq_none {id : Uuid} (distinct : (commissions.map (·.runId)).Nodup)
    (absent : ∀ commission ∈ remembered commissions capacity, commission.runId ≠ id) :
    (traced commissions capacity).find? id = none := by
  by_contra holds
  rw [← ne_eq, (consistent_traced commissions capacity).find?_ne_none_iff,
    admitted_traced distinct] at holds
  obtain ⟨commission, mem, same⟩ := List.mem_map.1 holds
  exact absent commission mem same

/-- The runs of a canvas are listed from the last to the first, if none started before the one that
was executed before it. -/
theorem runsOfCanvas_traced (distinct : (commissions.map (·.runId)).Nodup)
    (ordered : commissions.Pairwise fun a b => (a.draws.clock 0).notAfter (b.draws.clock 0))
    (canvasId : String) :
    (traced commissions capacity).runsOfCanvas canvasId =
      ((remembered commissions capacity).reverse.filter (·.canvasId = canvasId)).map
        (·.report.run) := by
  have runs : (traced commissions capacity).admitted.reverse.filterMap
      (traced commissions capacity).run? =
        (remembered commissions capacity).reverse.map (·.report.run) := by
    rw [admitted_traced distinct, ← List.map_reverse, List.filterMap_map, ← List.filterMap_eq_map]
    refine List.filterMap_congr fun commission mem => ?_
    obtain ⟨held, found, run, -⟩ := find?_traced distinct (List.mem_reverse.1 mem)
    change ((traced commissions capacity).find? commission.runId).map (·.run) = _
    rw [found, Option.map_some, run]
    rfl
  have canvas : ((remembered commissions capacity).reverse.map (·.report.run)).filter
      (·.canvasId = canvasId) =
        ((remembered commissions capacity).reverse.filter (·.canvasId = canvasId)).map
          (·.report.run) := by
    rw [List.filter_map]
    refine congrArg _ (List.filter_congr fun commission _ => ?_)
    simp [commission.report_run.2.1]
  rw [Tracer.runsOfCanvas, runs, canvas]
  -- The queue lists the runs from the last start to the first already, and sorting is stable.
  refine List.mergeSort_of_pairwise (List.pairwise_map.2 (List.Pairwise.filter _ ?_))
  rw [List.pairwise_reverse]
  refine (ordered.sublist (remembered_sublist commissions capacity)).imp fun {a b} notAfter => ?_
  rwa [a.report_run.2.2, b.report_run.2.2]

end Commission

end Canvas
