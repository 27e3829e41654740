import Canvas.Proofs.Run.Isolation
import Canvas.Proofs.Run.Outcome

/-!
# What is upstream has completed

Edges lead forward in a plan, and a run goes on to a step only when the steps before it have
completed and their outputs are stored. So a step finds the output of every node upstream of it,
however long the way from there. A field that one of these outputs can supply comes from an output,
and never from the input of the run.
-/

namespace Canvas

/-- A walk along the edges of a canvas leads forward in its plan. -/
theorem Graph.before_of_upstream {graph : Graph} {plan : Plan} {a b : String}
    (planned : graph.plan = .ok plan) (h : graph.Upstream a b) : plan.Before a b := by
  have runnable := valid_iff_runnable.1 (valid_of_plan planned)
  obtain ⟨nodes, complete, rfl, forward⟩ := exists_nodes_of_plan planned
  have nodeIds : (nodes.map graph.stepOf).map (·.nodeId) = nodes.map (·.id) := List.map_map
  obtain ⟨walk, hwalk, within⟩ := h
  obtain ⟨last, hlast, rfl⟩ := hwalk.exists_last
  refine Plan.before_of_idxOf_lt ?_ ?_
  · change last.target ∈ (nodes.map graph.stepOf).map (·.nodeId)
    rw [nodeIds, (complete.map _).mem_iff]
    exact (runnable.live last (within hlast)).2
  · change ((nodes.map graph.stepOf).map (·.nodeId)).idxOf a < _
    rw [Plan.nodeIds, nodeIds]
    exact hwalk.rank_lt (nodes.map (·.id)).idxOf fun edge he => forward edge (within he)

/-- Every step of a plan is that of a node. -/
theorem Graph.exists_node_of_step {graph : Graph} {plan : Plan} {step : PlanStep}
    (planned : graph.plan = .ok plan) (hstep : step ∈ plan.steps) :
    ∃ node ∈ graph.nodes, (node.id, node.type) = step.origin := by
  obtain ⟨nodes, complete, rfl, _⟩ := exists_nodes_of_plan planned
  obtain ⟨node, hnode, rfl⟩ := List.mem_map.1 hstep
  exact ⟨node, complete.mem_iff.1 hnode, rfl⟩

/-- Whether a node completed before step `i` of a run, and that step finds what the node
answered. -/
structure Execution.Finds (execution : Execution) (i : Nat) (node : Node) (output : Record) :
    Prop where
  completed : ∃ j < i, ∃ record latencyMs, execution.report.steps[j]? = some record ∧
    record.nodeId = node.id ∧ record.nodeType = node.type ∧ record.Succeeded output latencyMs
  stored : ⟨node.id, node.type, output⟩ ∈ (execution.outputsBefore i).entries
  found : (execution.outputsBefore i).find? node.id = some output

/-- Whether a field of what a step is given comes from an output that the step finds, and would
whatever the input of the run is. -/
def Execution.Supplies (execution : Execution) (graph : Graph) (i : Nat) (record : StepRecord)
    (binding : Binding) : Prop :=
  ∃ value, record.input.find? binding.field = some value ∧
    (∃ node ∈ graph.nodes, ∃ output, execution.Finds i node output ∧
      ∃ source ∈ binding.sources, source.type = node.type ∧
        output.find? source.field = some value) ∧
    ∀ input, (Resolver.standard.resolve record.nodeType (execution.outputsBefore i) input).find?
      binding.field = some value

/-- What a run owes to step `i` by the nodes upstream of it. All of them have completed when the
input of the step is put together, and it is put together from their outputs, too. What one of them
can supply is supplied. -/
structure Execution.Feeds (execution : Execution) (graph : Graph) (input : Record) (i : Nat)
    (record : StepRecord) : Prop where
  resolved : record.input =
    Resolver.standard.resolve record.nodeType (execution.outputsBefore i) input
  complete : ∀ a, graph.Upstream a record.nodeId →
    ∃ node ∈ graph.nodes, node.id = a ∧ ∃ output, execution.Finds i node output
  supplied : ∀ node output, graph.Upstream node.id record.nodeId → execution.Finds i node output →
    ∀ binding ∈ (Resolver.standard.policy record.nodeType).toBindings,
      ∀ source ∈ binding.sources, source.type = node.type →
        output.contains source.field = true → execution.Supplies graph i record binding

namespace Orchestrator

/-- A run goes on to another step only when the step before has completed. -/
theorem Dispatches.completes_of_lt {orchestrator : Orchestrator} {draws : Draws} {run : Run}
    {index j : Nat} {outputs : Outputs} {steps : List PlanStep} {records : List StepRecord}
    {calls : List (NodeType × Invocation)} {failure : Option RunError} {step : PlanStep}
    {record : StepRecord}
    (h : orchestrator.Dispatches draws run index outputs steps records calls failure)
    (hstep : steps[j]? = some step) (hrecord : records[j]? = some record)
    (early : j + 1 < records.length) : orchestrator.Completes (index + j) step record := by
  rcases h.completesAll_or_failsAt with ⟨_, completes⟩ | ⟨k, error, _, fails⟩
  · exact completes.completed j step record hstep hrecord
  · refine fails.completed j step record ?_ hstep hrecord
    rw [fails.dispatched] at early
    exact Nat.lt_of_succ_lt_succ early

section Upstream

variable {registry : Registry} {draws : Draws} {canvasId : String}
variable {graph : Graph} {input : Record} {plan : Plan} {execution : Execution} {i : Nat}
variable {step : PlanStep} {record : StepRecord} {orchestrator : Orchestrator}

/-- What a step finds was recorded when a step before it completed. -/
theorem exists_succeeded_of_mem {completed : Completed} (planned : graph.plan = .ok plan)
    (h : orchestrator.execute draws canvasId graph input = execution)
    (hrecord : execution.report.steps[i]? = some record)
    (stored : completed ∈ (execution.outputsBefore i).entries) :
    ∃ j < i, ∃ earlier latencyMs, execution.report.steps[j]? = some earlier ∧
      earlier.nodeId = completed.nodeId ∧ earlier.nodeType = completed.type ∧
      earlier.Succeeded completed.output latencyMs := by
  have dispatches := (orchestrator.execute_dispatches draws canvasId input planned execution h).1
  obtain ⟨earlier, hearlier, told⟩ := List.mem_filterMap.1 stored
  obtain ⟨output, recorded, rfl⟩ := Option.map_eq_some_iff.1 told
  obtain ⟨j, hj⟩ := List.mem_iff_getElem?.1 hearlier
  rw [List.getElem?_take] at hj
  split at hj
  · rename_i early
    -- Step `i` was dispatched as well, so step `j` did not end the run.
    have dispatched : j + 1 < execution.report.steps.length :=
      Nat.lt_of_le_of_lt early (List.getElem?_eq_some_iff.1 hrecord).1
    have planned_step : j < plan.steps.length :=
      Nat.lt_of_lt_of_le (Nat.lt_of_succ_lt dispatched) dispatches.length_le
    obtain ⟨answer, latencyMs, succeeded, _⟩ :=
      dispatches.completes_of_lt (List.getElem?_eq_getElem planned_step) hj dispatched
    obtain rfl : output = answer := Option.some.inj (recorded.symm.trans succeeded.2.1)
    exact ⟨j, early, earlier, latencyMs, hj, rfl, rfl, succeeded⟩
  · contradiction

/-- What is stored when a step is dispatched is the output of a node that completed. -/
theorem exists_finds_of_mem {completed : Completed} (planned : graph.plan = .ok plan)
    (h : orchestrator.execute draws canvasId graph input = execution)
    (hrecord : execution.report.steps[i]? = some record)
    (stored : completed ∈ (execution.outputsBefore i).entries) :
    ∃ node ∈ graph.nodes, node.id = completed.nodeId ∧ node.type = completed.type ∧
      execution.Finds i node completed.output := by
  have listed : completed.origin ∈ (plan.steps.take i).map PlanStep.origin := by
    rw [← origins_outputsBefore planned h hrecord]
    exact List.mem_map_of_mem stored
  obtain ⟨earlier, hearlier, origin⟩ := List.mem_map.1 listed
  obtain ⟨node, hnode, same⟩ := Graph.exists_node_of_step planned (List.mem_of_mem_take hearlier)
  obtain ⟨id, type⟩ := Prod.mk.inj (same.trans origin)
  refine ⟨node, hnode, id, type, ?_, ?_, ?_⟩
  · rw [id, type]
    exact exists_succeeded_of_mem planned h hrecord stored
  · rw [id, type]
    exact stored
  · rw [id]
    exact Outputs.find?_of_mem (nodup_outputsBefore planned h hrecord) stored

/-- A step finds the output of every node upstream of it. -/
theorem exists_finds_of_upstream {a : String} (planned : graph.plan = .ok plan)
    (h : orchestrator.execute draws canvasId graph input = execution)
    (hstep : plan.steps[i]? = some step) (hrecord : execution.report.steps[i]? = some record)
    (upstream : graph.Upstream a step.nodeId) :
    ∃ node ∈ graph.nodes, node.id = a ∧ ∃ output, execution.Finds i node output := by
  have position : plan.nodeIds[i]? = some step.nodeId := by
    rw [Plan.nodeIds, List.getElem?_map, hstep]
    rfl
  obtain ⟨j, early, hj⟩ := (Graph.before_of_upstream planned upstream).exists_lt
    (Graph.nodup_nodeIds planned) position
  have listed : a ∈ (execution.outputsBefore i).entries.map (·.nodeId) := by
    rw [nodeIds_outputsBefore planned h hrecord]
    exact List.mem_of_getElem? ((List.getElem?_take_of_lt early).trans hj)
  obtain ⟨completed, stored, rfl⟩ := List.mem_map.1 listed
  obtain ⟨node, hnode, id, _, finds⟩ := exists_finds_of_mem planned h hrecord stored
  exact ⟨node, hnode, id, completed.output, finds⟩

/-- What some output that a step finds can supply is supplied. -/
theorem supplies_of_finds {node : Node} {output : Record} {binding : Binding} {source : FieldSource}
    (planned : graph.plan = .ok plan)
    (h : execute ⟨registry, .standard⟩ draws canvasId graph input = execution)
    (hrecord : execution.report.steps[i]? = some record)
    (resolved : record.input =
      Resolver.standard.resolve record.nodeType (execution.outputsBefore i) input)
    (finds : execution.Finds i node output)
    (bound : binding ∈ (Resolver.standard.policy record.nodeType).toBindings)
    (drawn : source ∈ binding.sources) (type : source.type = node.type)
    (has : output.contains source.field = true) : execution.Supplies graph i record binding := by
  obtain ⟨value, taken, other, hother, supplier, stored, same, said⟩ :=
    Binding.exists_value?_of_source drawn finds.stored type.symm has
  have given : ∀ input, (Resolver.standard.resolve record.nodeType (execution.outputsBefore i)
      input).find? binding.field = some value := fun input =>
    (Resolver.find?_resolve (Resolver.nodup_fields_standard _) bound).trans (taken input)
  obtain ⟨origin, horigin, _, supplierType, found⟩ := exists_finds_of_mem planned h hrecord stored
  refine ⟨value, ?_, ⟨origin, horigin, supplier.output, found, other, hother, ?_, said⟩, given⟩
  · rw [resolved]
    exact given input
  · exact same.symm.trans supplierType.symm

/-- Whatever lies upstream of a step that is dispatched has completed, and what it can supply to the
step is supplied, not taken from the input of the run. -/
theorem fed_by_upstream (valid : graph.validate.valid = true)
    (h : execute ⟨registry, .standard⟩ draws canvasId graph input = execution) :
    ∃ plan, graph.plan = .ok plan ∧
      ∀ i record, execution.report.steps[i]? = some record →
        (∃ step, plan.steps[i]? = some step ∧ record.TellsOf draws draws.runId i step) ∧
        execution.Feeds graph input i record := by
  obtain ⟨wiring, order, _, _, planned⟩ := Graph.exists_plan_of_valid valid
  refine ⟨_, planned, fun i record hrecord => ?_⟩
  have dispatches := (execute_dispatches _ draws canvasId input planned execution h).1
  have dispatched := (List.getElem?_eq_some_iff.1 hrecord).1
  have hstep := List.getElem?_eq_getElem (Nat.lt_of_lt_of_le dispatched dispatches.length_le)
  have tells := dispatches.tellsOf hstep hrecord
  rw [Nat.zero_add] at tells
  have resolved := input_eq_resolve planned h hstep hrecord
  rw [← tells.nodeType] at resolved
  refine ⟨⟨_, hstep, tells⟩, resolved, fun a upstream => ?_, ?_⟩
  · rw [tells.nodeId] at upstream
    exact exists_finds_of_upstream planned h hstep hrecord upstream
  · intro node output _ finds binding bound source drawn type has
    exact supplies_of_finds planned h hrecord resolved finds bound drawn type has

end Upstream

/-- The search is given the embedding that was made of the question, though the run was asked for
another. -/
theorem pipeline_fed_by_upstream :
    let graph : Graph :=
      ⟨[.ofId "answer" .generate, .ofId "search" .retrieve,
          (Node.ofId "vector" .embed).withConfig "emit" (.obj [("embedding", .str "made")]),
          .ofId "question" .query],
        [⟨"e1", "question", "vector"⟩, ⟨"e2", "vector", "search"⟩, ⟨"e3", "search", "answer"⟩]⟩
    let input : Record := Dict.empty.insert "embedding" (.str "asked")
    let execution := execute ⟨.echoing, .standard⟩ ⟨.nil, fun n => ⟨n⟩, fun _ => default⟩ "canvas"
      graph input
    graph.validate.valid = true ∧ graph.Upstream "question" "search" ∧
      ∃ record, execution.report.steps[2]? = some record ∧ record.nodeId = "search" ∧
        (record.input.find? "embedding").bind Json.text? = some "made" ∧
        execution.Feeds graph input 2 record := by
  intro graph input execution
  have valid : graph.validate.valid = true := by decide +kernel
  have upstream : graph.Upstream "question" "search" :=
    ⟨[⟨"e1", "question", "vector"⟩, ⟨"e2", "vector", "search"⟩],
      .cons ⟨"e1", "question", "vector"⟩ (.single ⟨"e2", "vector", "search"⟩), by simp [graph]⟩
  have reached : execution.report.steps[2]?.map (fun record =>
      (record.nodeId, (record.input.find? "embedding").bind Json.text?)) =
        some ("search", some "made") := by decide +kernel
  obtain ⟨record, hrecord, said⟩ := Option.map_eq_some_iff.1 reached
  obtain ⟨id, made⟩ := Prod.mk.inj said
  have h : execute ⟨.echoing, .standard⟩ ⟨.nil, fun n => ⟨n⟩, fun _ => default⟩ "canvas" graph
    input = execution := rfl
  obtain ⟨plan, _, fed⟩ := fed_by_upstream valid h
  exact ⟨valid, upstream, record, hrecord, id, made, (fed 2 record hrecord).2⟩

end Orchestrator

end Canvas
