import Canvas.Proofs.Run.Upstream

/-!
# Where a run starts and what it returns

A plan begins with the steps of the entry nodes, in the order in which these were drawn, and nothing
feeds them. So a run starts with the first entry node of its canvas, however many other nodes were
drawn before it.

A run that completes returns the output of the last terminal step of its plan. A plan always has
one, so neither the output of another step nor an empty one is ever returned instead. A terminal
step feeds terminal steps only, and these stand behind it; so nothing is fed by the last.
-/

namespace Canvas

/-- The step of an entry node, which has no inputs. -/
def Node.entryStep (node : Node) : PlanStep := ⟨node.id, .query, node.label, node.config, []⟩

/-- Whether step `k` of a plan is the last terminal one. -/
structure Plan.EndsAt (plan : Plan) (k : Nat) (step : PlanStep) : Prop where
  reached : plan.steps[k]? = some step
  terminal : step.nodeType = .generate ∨ step.nodeType = .agent
  last : ∀ (j : Nat) (later : PlanStep), k < j → plan.steps[j]? = some later →
    ¬ (later.nodeType = .generate ∨ later.nodeType = .agent)

/-- Whether a run returns the output of step `k`. It is recorded as the output of the step, it is
found when the newest terminal output is looked for, and it is the output of the run. -/
structure Execution.Returns (execution : Execution) (draws : Draws) (k : Nat) (step : PlanStep)
    (output : Record) : Prop where
  recorded : ∃ record latencyMs, execution.report.steps[k]? = some record ∧
    record.TellsOf draws draws.runId k step ∧ record.Succeeded output latencyMs
  chosen : (Outputs.ofRecords execution.report.steps).entries.reverse.find? (·.type.isTerminal) =
    some ⟨step.nodeId, step.nodeType, output⟩
  returned : execution.report.run.output = some output

theorem NodeType.eq_generate_of_mem_targets {source target : NodeType}
    (terminal : source = .generate ∨ source = .agent) (h : target ∈ source.targets) :
    target = .generate := by
  rcases terminal with rfl | rfl
  · exact absurd h List.not_mem_nil
  · exact List.mem_singleton.1 h

namespace Graph

variable {graph : Graph} {plan : Plan} {node : Node} {step : PlanStep} {k : Nat}

theorem entries_eq (graph : Graph) : graph.entries = graph.nodes.filter (·.type = .query) :=
  List.filter_congr fun _ _ =>
    Bool.eq_iff_iff.2 (NodeType.isEntry_iff.trans decide_eq_true_iff.symm)

theorem entries_ne_nil (planned : graph.plan = .ok plan) : graph.entries ≠ [] := by
  obtain ⟨node, hnode, entry⟩ := (valid_iff_runnable.1 (valid_of_plan planned)).entry
  exact List.ne_nil_of_mem (List.mem_filter.2 ⟨hnode, NodeType.isEntry_iff.2 entry⟩)

theorem stepOf_eq_entryStep (planned : graph.plan = .ok plan) (hnode : node ∈ graph.entries) :
    graph.stepOf node = node.entryStep := by
  obtain ⟨listed, entry⟩ := List.mem_filter.1 hnode
  have runnable := valid_iff_runnable.1 (valid_of_plan planned)
  have unfed : graph.sourcesOf node.id = [] := by
    refine List.eq_nil_iff_forall_not_mem.2 fun a ha => ?_
    obtain ⟨edge, he, -, target⟩ := mem_sourcesOf.1 ha
    exact runnable.target_ne_entry listed entry he target
  have inputs : (graph.stepOf node).inputs = [] :=
    (inputs_stepOf (List.mem_map_of_mem listed)).trans unfed
  rw [Node.entryStep, ← NodeType.isEntry_iff.1 entry, ← inputs]
  rfl

theorem exists_endsAt (planned : graph.plan = .ok plan) : ∃ k step, plan.EndsAt k step := by
  obtain ⟨origin, listed, terminal⟩ := exists_terminal_step planned
  obtain ⟨step, hstep, rfl⟩ := List.mem_map.1 listed
  have found : (plan.steps.reverse.find? (·.nodeType.isTerminal)).isSome :=
    List.find?_isSome.2 ⟨step, List.mem_reverse.2 hstep, terminal⟩
  obtain ⟨last, hlast⟩ := Option.isSome_iff_exists.1 found
  obtain ⟨ending, k, hk, later⟩ := find?_reverse_eq_some_iff.1 hlast
  refine ⟨k, last, hk, NodeType.isTerminal_iff.1 ending, fun j other hj hother kind => ?_⟩
  rw [← NodeType.isTerminal_iff, later j other hj hother] at kind
  contradiction

/-- An edge from the node of a step leads to the node of a later one, of a type that the step may
feed. -/
theorem exists_later_of_edge (planned : graph.plan = .ok plan) (hstep : plan.steps[k]? = some step)
    {edge : Edge} (he : edge ∈ graph.edges) (source : edge.source = step.nodeId) :
    ∃ j later, k < j ∧ plan.steps[j]? = some later ∧ later.nodeType ∈ step.nodeType.targets := by
  have runnable := valid_iff_runnable.1 (valid_of_plan planned)
  have upstream : graph.Upstream edge.source edge.target :=
    ⟨[edge], .single edge, List.cons_subset.2 ⟨he, List.nil_subset _⟩⟩
  have position : plan.nodeIds[k]? = some edge.source := by
    rw [Plan.nodeIds, List.getElem?_map, hstep, source]
    rfl
  obtain ⟨j, early, hj⟩ :=
    (before_of_upstream planned upstream).exists_gt (nodup_nodeIds planned) position
  rw [Plan.nodeIds, List.getElem?_map, Option.map_eq_some_iff] at hj
  obtain ⟨later, hlater, target⟩ := hj
  obtain ⟨feeding, hfeeding, origin⟩ := exists_node_of_step planned (List.mem_of_getElem? hstep)
  obtain ⟨fed, hfed, laterOrigin⟩ := exists_node_of_step planned (List.mem_of_getElem? hlater)
  obtain ⟨id, type⟩ := Prod.mk.inj origin
  obtain ⟨laterId, laterType⟩ := Prod.mk.inj laterOrigin
  refine ⟨j, later, early, hlater, ?_⟩
  rw [← type, ← laterType]
  exact runnable.allowed edge he feeding hfeeding fed hfed (id.trans source.symm)
    (laterId.trans target)

/-- The node of the last terminal step feeds nothing. What it fed would be terminal and would stand
behind it. -/
theorem source_ne_of_endsAt (planned : graph.plan = .ok plan) (ends : plan.EndsAt k step)
    {edge : Edge} (he : edge ∈ graph.edges) : edge.source ≠ step.nodeId := by
  intro source
  obtain ⟨j, later, behind, hlater, fed⟩ :=
    exists_later_of_edge planned ends.reached he source
  exact ends.last j later behind hlater
    (.inl (NodeType.eq_generate_of_mem_targets ends.terminal fed))

end Graph

namespace Orchestrator

/-- Whether a run starts with a step. Behind the start of the run itself, the first event announces
the step and the first record is about it. The first call is that of its executor, if it has one.
All of them hold the input that is put together when no step has completed. -/
structure OpensWith (orchestrator : Orchestrator) (draws : Draws) (input : Record)
    (step : PlanStep) (execution : Execution) : Prop where
  announced : execution.events[1]? = some ⟨draws.clock 1, draws.runId,
    .stepStarted (draws.refAt 0 step)
      (orchestrator.resolver.resolve step.nodeType Outputs.empty input)⟩
  recorded : ∃ record, execution.report.steps[0]? = some record ∧
    record.TellsOf draws draws.runId 0 step ∧
    record.input = orchestrator.resolver.resolve step.nodeType Outputs.empty input
  called : execution.calls.head? = (orchestrator.registry.find? step.nodeType).map fun _ =>
    (step.nodeType,
      ⟨0, orchestrator.resolver.resolve step.nodeType Outputs.empty input, step.config⟩)

section Steps

variable {orchestrator : Orchestrator} {draws : Draws} {run : Run} {index i k : Nat}
variable {step : PlanStep} {steps rest : List PlanStep} {outputs : Outputs}
variable {records : List StepRecord} {calls : List (NodeType × Invocation)}
variable {failure : Option RunError}

theorem head?_events_executeSteps (records : List StepRecord) (elapsedMs : Nat) :
    (orchestrator.executeSteps draws run (step :: rest) index records outputs
      elapsedMs).events.head? =
    some ⟨draws.clock (startEvent index), run.id, .stepStarted (draws.refAt index step)
      (orchestrator.resolver.resolve step.nodeType outputs run.input)⟩ := by
  rcases hdispatch : orchestrator.dispatch index step
    (orchestrator.resolver.resolve step.nodeType outputs run.input)
    with ⟨calls, error | output, latencyMs⟩
  · rw [events_executeSteps_of_error rfl hdispatch]
    rfl
  · rw [events_executeSteps_of_ok rfl hdispatch]
    rfl

/-- The first of some steps is recorded, and called if its type has an executor. -/
theorem Dispatches.head
    (h : orchestrator.Dispatches draws run index outputs (step :: rest) records calls failure) :
    (∃ record, records[0]? = some record) ∧
    calls.head? = (orchestrator.registry.find? step.nodeType).map fun _ =>
      (step.nodeType, orchestrator.invocation run outputs index step) := by
  cases h with
  | completed asked answer tail =>
      obtain ⟨executor, registered, -⟩ := answer
      rw [registered, asked]
      exact ⟨⟨_, rfl⟩, rfl⟩
  | failed asked failing =>
      refine ⟨⟨_, rfl⟩, ?_⟩
      cases failing with
      | refused registered refusal =>
          rw [registered, asked]
          rfl
      | unserved unregistered =>
          rw [unregistered]
          rfl

/-- If no step fails, each of them leaves its output in its place. -/
theorem Dispatches.exists_output
    (h : orchestrator.Dispatches draws run index outputs steps records calls none)
    (hstep : steps[i]? = some step) :
    ∃ record output latencyMs, records[i]? = some record ∧ record.Succeeded output latencyMs ∧
      (outputs.addRecords records).entries[outputs.size + i]? =
        some ⟨step.nodeId, step.nodeType, output⟩ := by
  generalize hfailure : none = failure at h
  induction h generalizing i with
  | done => simp at hstep
  | @completed index outputs first rest records calls failure call output latencyMs asked answer
      tail ih =>
      rw [addRecords_completedRecord]
      cases i with
      | zero =>
          obtain rfl := Option.some.inj hstep
          refine ⟨_, output, latencyMs, rfl, ⟨rfl, rfl, rfl, rfl⟩, ?_⟩
          simp [Outputs.addRecords, Outputs.insert, Outputs.size]
      | succ i =>
          obtain ⟨record, output, latencyMs, hrecord, succeeded, stored⟩ := ih hstep hfailure
          refine ⟨record, output, latencyMs, hrecord, succeeded, ?_⟩
          rw [← stored]
          congr 1
          simp [Outputs.insert, Outputs.size]
          omega
  | failed asked failing => contradiction

/-- If no step fails, the newest terminal output is that of the last terminal step. -/
theorem Dispatches.find?_terminal {plan : Plan}
    (h : orchestrator.Dispatches draws run index Outputs.empty plan.steps records calls none)
    (ends : plan.EndsAt k step) :
    ∃ record output latencyMs, records[k]? = some record ∧ record.Succeeded output latencyMs ∧
      (Outputs.ofRecords records).entries.reverse.find? (·.type.isTerminal) =
        some ⟨step.nodeId, step.nodeType, output⟩ := by
  obtain ⟨record, output, latencyMs, hrecord, succeeded, stored⟩ := h.exists_output ends.reached
  refine ⟨record, output, latencyMs, hrecord, succeeded, find?_reverse_eq_some_iff.2
    ⟨NodeType.isTerminal_iff.2 ends.terminal, k, ?_, fun j later hj hlater => ?_⟩⟩
  · rwa [Outputs.size, Outputs.empty, List.length_nil, Nat.zero_add] at stored
  · have origins : (plan.steps[j]?).map PlanStep.origin = some later.origin := by
      have all : (Outputs.ofRecords records).entries.map Completed.origin =
          plan.steps.map PlanStep.origin := h.origins_of_completed
      rw [← List.getElem?_map, ← all, List.getElem?_map, hlater]
      rfl
    obtain ⟨other, hother, origin⟩ := Option.map_eq_some_iff.1 origins
    obtain ⟨-, type⟩ := Prod.mk.inj origin
    rw [← type, Bool.eq_false_iff, Ne, NodeType.isTerminal_iff]
    exact ends.last j other hj hother

end Steps

section Execute

variable {orchestrator : Orchestrator} {draws : Draws} {canvasId : String} {graph : Graph}
variable {input : Record} {plan : Plan} {execution : Execution} {step : PlanStep}

/-- A run starts with the first step of its plan. -/
theorem opensWith_of_plan {rest : List PlanStep} (planned : graph.plan = .ok plan)
    (steps : plan.steps = step :: rest)
    (h : orchestrator.execute draws canvasId graph input = execution) :
    orchestrator.OpensWith draws input step execution := by
  obtain ⟨dispatches, -⟩ := orchestrator.execute_dispatches draws canvasId input planned _ h
  rw [steps] at dispatches
  obtain ⟨⟨record, hrecord⟩, called⟩ := dispatches.head
  have tells := dispatches.tellsOf List.getElem?_cons_zero hrecord
  have asked := dispatches.input_eq List.getElem?_cons_zero hrecord
  refine ⟨?_, ⟨record, hrecord, tells, asked⟩, called⟩
  rw [← h, execute_of_plan orchestrator draws canvasId input planned, steps,
    Execution.events_after]
  exact List.head?_eq_getElem?.symm.trans (head?_events_executeSteps [] 0)

/-- A run that completes has a plan, and no step of the plan fails. -/
theorem exists_plan_of_completed
    (h : orchestrator.execute draws canvasId graph input = execution)
    (completed : execution.report.run.status = .completed) :
    ∃ plan, graph.plan = .ok plan ∧
      orchestrator.Dispatches draws (begunRun draws canvasId input) 0 Outputs.empty plan.steps
        execution.report.steps execution.calls none ∧
      execution.report.run.output =
        some ((Outputs.ofRecords execution.report.steps).final?.getD Dict.empty) := by
  cases planned : graph.plan with
  | error error =>
      rw [← h, execute_of_planning_error orchestrator draws canvasId input planned] at completed
      contradiction
  | ok plan =>
      obtain ⟨dispatches, left⟩ := orchestrator.execute_dispatches draws canvasId input planned _ h
      cases failure : execution.failure with
      | some error =>
          rw [left, failure] at completed
          contradiction
      | none =>
          rw [failure] at dispatches left
          exact ⟨plan, rfl, dispatches, congrArg Run.output left⟩

/-- The plan of a canvas begins with the entry nodes, in the order of the nodes and without inputs,
and has no other steps of entry nodes. So every run of the canvas starts with the first entry node,
whatever stands before it among the nodes. -/
theorem begins_with_entries (planned : graph.plan = .ok plan) :
    ∃ first others rest, graph.nodes.filter (·.type = .query) = first :: others ∧
      plan.steps = (first :: others).map Node.entryStep ++ rest ∧
      (∀ step ∈ rest, step.nodeType ≠ .query) ∧
      ∀ (orchestrator : Orchestrator) (draws : Draws) (canvasId : String) (input : Record),
        orchestrator.OpensWith draws input first.entryStep
          (orchestrator.execute draws canvasId graph input) := by
  obtain ⟨rest, steps, later⟩ := Graph.exists_steps_behind_entries planned
  rw [List.map_congr_left fun node hnode => Graph.stepOf_eq_entryStep planned hnode] at steps
  obtain ⟨first, others, drawn⟩ := List.exists_cons_of_ne_nil (Graph.entries_ne_nil planned)
  rw [drawn] at steps
  refine ⟨first, others, rest, graph.entries_eq.symm.trans drawn, steps, later, ?_⟩
  intro orchestrator draws canvasId input
  exact opensWith_of_plan planned steps rfl

/-- A ranking and an answer that nothing feeds are drawn before two questions, and the second
question is connected first. Runs start with the first question nevertheless. -/
theorem begins_behind_unconnected_nodes :
    let graph : Graph :=
      ⟨[.ofId "alone" .rerank, .ofId "idle" .agent, .ofId "first" .query, .ofId "answer" .generate,
          .ofId "second" .query],
        [⟨"e1", "second", "answer"⟩, ⟨"e2", "first", "answer"⟩]⟩
    ∃ plan rest, graph.plan = .ok plan ∧
      plan.steps =
        [(Node.ofId "first" .query).entryStep, (Node.ofId "second" .query).entryStep] ++ rest ∧
      (∀ step ∈ rest, step.nodeType ≠ .query) ∧
      ∀ (orchestrator : Orchestrator) (draws : Draws) (canvasId : String) (input : Record),
        orchestrator.OpensWith draws input (Node.ofId "first" .query).entryStep
          (orchestrator.execute draws canvasId graph input) := by
  intro graph
  obtain ⟨plan, planned, -⟩ : ∃ plan, graph.plan = .ok plan ∧
      plan.steps.map PlanStep.origin = [("first", .query), ("second", .query), ("alone", .rerank),
        ("idle", .agent), ("answer", .generate)] := Graph.exists_plan_of_origins (by decide)
  obtain ⟨first, others, rest, drawn, steps, later, opens⟩ := begins_with_entries planned
  have questions : graph.nodes.filter (·.type = .query) =
      [.ofId "first" .query, .ofId "second" .query] := rfl
  obtain ⟨rfl, rfl⟩ := List.cons.inj (questions.symm.trans drawn)
  exact ⟨plan, rest, planned, steps, later, opens⟩

/-- A run that completes returns the output of the last step of its plan that generates or is an
agent. There is such a step, and its node feeds nothing. -/
theorem returns_output_of_last_terminal_step
    (h : orchestrator.execute draws canvasId graph input = execution)
    (completed : execution.report.run.status = .completed) :
    ∃ plan k step output, graph.plan = .ok plan ∧ plan.EndsAt k step ∧
      execution.Returns draws k step output ∧
      ∀ edge ∈ graph.edges, edge.source ≠ step.nodeId := by
  obtain ⟨plan, planned, dispatches, returned⟩ := exists_plan_of_completed h completed
  obtain ⟨k, step, ends⟩ := Graph.exists_endsAt planned
  obtain ⟨record, output, latencyMs, hrecord, succeeded, chosen⟩ := dispatches.find?_terminal ends
  have tells := dispatches.tellsOf ends.reached hrecord
  rw [Nat.zero_add] at tells
  refine ⟨plan, k, step, output, planned, ends, ⟨⟨record, latencyMs, hrecord, tells, succeeded⟩,
    chosen, ?_⟩, fun edge he => Graph.source_ne_of_endsAt planned ends he⟩
  rw [returned, Outputs.final?, chosen]
  rfl

/-- A guess at a document, which nothing reads, follows the agent in the plan. The run returns what
the agent answered. -/
theorem returns_answer_of_agent :
    let graph : Graph :=
      ⟨[.ofId "question" .query,
          (Node.ofId "answer" .agent).withConfig "emit" (.obj [("answer", .str "because")]),
          .ofId "guess" .hyde],
        [⟨"e1", "question", "answer"⟩, ⟨"e2", "question", "guess"⟩]⟩
    let draws : Draws := ⟨.nil, fun n => ⟨n⟩, fun _ => default⟩
    let execution := execute ⟨.echoing, .standard⟩ draws "canvas" graph Dict.empty
    execution.report.run.status = .completed ∧ ∃ plan k step output, graph.plan = .ok plan ∧
      plan.nodeIds = ["question", "answer", "guess"] ∧ plan.EndsAt k step ∧
      step.origin = ("answer", .agent) ∧ execution.Returns draws k step output ∧
      (output.find? "answer").bind Json.text? = some "because" ∧
      ∀ edge ∈ graph.edges, edge.source ≠ step.nodeId := by
  intro graph draws execution
  have completed : execution.report.run.status = .completed := by decide +kernel
  have answer : execution.report.run.output.bind
      (fun output => (output.find? "answer").bind Json.text?) = some "because" := by
    decide +kernel
  have h : execute ⟨.echoing, .standard⟩ draws "canvas" graph Dict.empty = execution := rfl
  clear_value execution
  obtain ⟨plan, planned, origins⟩ : ∃ plan, graph.plan = .ok plan ∧
      plan.steps.map PlanStep.origin = [("question", .query), ("answer", .agent),
        ("guess", .hyde)] := Graph.exists_plan_of_origins (by decide)
  obtain ⟨same, k, step, output, compiled, ends, returns, feeds⟩ :=
    returns_output_of_last_terminal_step h completed
  obtain rfl : plan = same := Except.ok.inj (planned.symm.trans compiled)
  have only : ∀ origin ∈ [("question", NodeType.query), ("answer", .agent), ("guess", .hyde)],
      origin.2 = .generate ∨ origin.2 = .agent → origin = ("answer", .agent) := by decide
  have answers : step.origin = ("answer", .agent) :=
    only step.origin (origins ▸ List.mem_map_of_mem (List.mem_of_getElem? ends.reached))
      ends.terminal
  rw [returns.returned] at answer
  refine ⟨completed, plan, k, step, output, planned, ?_, ends, answers, returns, answer, feeds⟩
  have ids := congrArg (List.map Prod.fst) origins
  rwa [List.map_map] at ids

end Execute

end Orchestrator

end Canvas
