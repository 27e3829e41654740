import Canvas.Proofs.Run.Outcome
import Canvas.Proofs.Run.Outputs
import Canvas.Proofs.Resolver

/-!
# Runs that echo

An executor that echoes fails in one case only: its configuration has an `emit` that is no object.
So a run in which every type echoes completes exactly if its canvas is valid and no configuration
has one, and else it stops at the first step of the plan that does.

If nothing is emitted, the usual policies are transparent. What a step passes on is what its type is
given where no step has completed, for every output from which a field may be taken carries the same
field of the input as the fallback does. So the terminal steps, and with them the run, return the
query and the documents of the input, whatever the canvas looks like.
-/

namespace Canvas

namespace Executor

/-- Whether the `emit` of a configuration, if there is one, is an object. -/
def CanEcho (config : Record) : Prop :=
  ∀ value, config.find? "emit" = some value → ∃ members, value = .obj members

/-- The error of a step whose `emit` is no object. -/
def emitError : StepError := .configuration "`emit` must be an object"

variable {type : NodeType} {call : Invocation}

theorem exists_execute_echo (h : CanEcho call.config) :
    ∃ output, (echo type).execute call = ⟨.ok output, 0⟩ := by
  unfold echo
  cases emit : call.config.find? "emit" with
  | none => exact ⟨call.input, by simp [emit]⟩
  | some value =>
      obtain ⟨members, rfl⟩ := h value emit
      exact ⟨call.input.insertAll members, by simp [emit]⟩

theorem execute_echo_of_silent (silent : call.config.find? "emit" = none) :
    (echo type).execute call = ⟨.ok call.input, 0⟩ := by
  simp [echo, silent]

theorem execute_echo_of_not_canEcho (h : ¬ CanEcho call.config) :
    (echo type).execute call = ⟨.error emitError, 0⟩ := by
  simp only [CanEcho, not_forall, exists_prop] at h
  obtain ⟨value, emit, other⟩ := h
  cases value
  case obj members => exact absurd ⟨members, rfl⟩ other
  all_goals simp [echo, emit, emitError]

end Executor

theorem Registry.find?_echoing (type : NodeType) :
    echoing.find? type = some (.echo type) := by
  cases type
  all_goals rfl

namespace Orchestrator

open Executor (CanEcho emitError)

section Echoing

variable {resolver : Resolver} {draws : Draws} {canvasId : String} {graph : Graph} {input : Record}
variable {plan : Plan} {step : PlanStep} {call : Invocation} {output : Record} {latencyMs : Nat}
variable {calls : List (NodeType × Invocation)} {error : RunError}

theorem Answers.canEcho (h : Answers ⟨.echoing, resolver⟩ step call output latencyMs) :
    CanEcho call.config := by
  obtain ⟨executor, registered, answer⟩ := h
  obtain rfl := Option.some.inj ((Registry.find?_echoing _).symm.trans registered)
  by_contra refused
  rw [Executor.execute_echo_of_not_canEcho refused] at answer
  exact absurd (Completion.mk.inj answer).1 (by simp)

/-- A step that cannot echo is called and refuses. No other step fails. -/
theorem Fails.of_echoing (h : Fails ⟨.echoing, resolver⟩ step call calls error latencyMs) :
    ¬ CanEcho call.config ∧ error = .stepFailed step.nodeId emitError := by
  cases h with
  | @refused executor cause _ registered refusal =>
      obtain rfl := Option.some.inj ((Registry.find?_echoing _).symm.trans registered)
      have refuses : ¬ CanEcho call.config := by
        intro able
        obtain ⟨output, answer⟩ := @Executor.exists_execute_echo step.nodeType _ able
        rw [answer] at refusal
        exact absurd (Completion.mk.inj refusal).1 (by simp)
      rw [Executor.execute_echo_of_not_canEcho refuses] at refusal
      obtain ⟨same, -⟩ := Completion.mk.inj refusal
      exact ⟨refuses, congrArg _ (Except.error.inj same).symm⟩
  | unserved unregistered =>
      rw [Registry.find?_echoing] at unregistered
      contradiction

/-- Whether a run stopped at step `k` because the step cannot echo. It is the first that cannot; the
steps before it completed, each by one call, and those behind it were not dispatched. -/
structure RefusesAt (resolver : Resolver) (steps : List PlanStep) (execution : Execution) (k : Nat)
    (step : PlanStep) : Prop where
  refused : steps[k]? = some step ∧ ¬ CanEcho step.config
  first : ∀ i < k, ∀ earlier, steps[i]? = some earlier → CanEcho earlier.config
  stopped : FailsAt ⟨.echoing, resolver⟩ 0 k steps execution.report.steps execution.calls
    (.stepFailed step.nodeId emitError)
  failure : execution.failure = some (.stepFailed step.nodeId emitError)
  status : execution.report.run.status = .failed
  error : execution.report.run.error = some (RunError.stepFailed step.nodeId emitError).message

/-- If every type echoes, a run completes all steps and each of them can echo, or it stops at the
first step that cannot. -/
theorem echoes_or_refuses (planned : graph.plan = .ok plan) (execution : Execution)
    (h : execute ⟨.echoing, resolver⟩ draws canvasId graph input = execution) :
    (execution.failure = none ∧ execution.report.run.status = .completed ∧
      ∀ step ∈ plan.steps, CanEcho step.config) ∨
    (∃ k step, RefusesAt resolver plan.steps execution k step) := by
  obtain ⟨dispatches, left⟩ := execute_dispatches _ draws canvasId input planned execution h
  rcases dispatches.completesAll_or_failsAt with ⟨none, completes⟩ | ⟨k, error, some, fails⟩
  · left
    refine ⟨none, by rw [left, none]; rfl, ?_⟩
    intro step hstep
    obtain ⟨i, hi⟩ := List.mem_iff_getElem?.1 hstep
    have dispatched : i < execution.report.steps.length := by
      have bound := (List.getElem?_eq_some_iff.1 hi).1
      have all := completes.dispatched
      omega
    obtain ⟨output, latencyMs, -, answers⟩ :=
      completes.completed i step _ hi (List.getElem?_eq_getElem dispatched)
    exact answers.canEcho
  · right
    obtain ⟨step, record, last, latencyMs, hstep, -, -, failing, -⟩ := fails.failed
    obtain ⟨refused, rfl⟩ := failing.of_echoing
    refine ⟨k, step, ⟨hstep, refused⟩, ?_, fails, some, by rw [left, some]; rfl,
      by rw [left, some]; rfl⟩
    intro i early earlier hearlier
    have dispatched : i < execution.report.steps.length := by
      have all := fails.dispatched
      omega
    obtain ⟨output, latencyMs, -, answers⟩ :=
      fails.completed i earlier _ early hearlier (List.getElem?_eq_getElem dispatched)
    exact answers.canEcho

/-- What holds of the configurations of all steps of a plan holds of those of all nodes. -/
theorem forall_config_iff (planned : graph.plan = .ok plan) (p : Record → Prop) :
    (∀ step ∈ plan.steps, p step.config) ↔ ∀ node ∈ graph.nodes, p node.config := by
  obtain ⟨nodes, complete, rfl, -⟩ := Graph.exists_nodes_of_plan planned
  constructor
  · intro h node hnode
    exact h (graph.stepOf node) (List.mem_map_of_mem (complete.mem_iff.2 hnode))
  · intro h step hstep
    obtain ⟨node, hnode, rfl⟩ := List.mem_map.1 hstep
    exact h node (complete.mem_iff.1 hnode)

/-- A run in which every type echoes leaves no error exactly if the canvas is valid and every node
can echo. -/
theorem error_eq_none_iff_canEcho {execution : Execution}
    (h : execute ⟨.echoing, resolver⟩ draws canvasId graph input = execution) :
    execution.report.run.error = none ↔
      graph.validate.valid = true ∧ ∀ node ∈ graph.nodes, CanEcho node.config := by
  cases planned : graph.plan with
  | error error =>
      have failed : execution.report.run.error ≠ none := by
        rw [← h, execute_of_planning_error _ draws canvasId input planned]
        exact Option.some_ne_none _
      exact iff_of_false failed fun able => Graph.not_valid_of_planning_error planned able.1
  | ok plan =>
      rw [← forall_config_iff planned]
      have left := (execute_dispatches _ draws canvasId input planned execution h).2
      rcases echoes_or_refuses planned _ h with ⟨none, -, able⟩ | ⟨k, step, refuses⟩
      · refine iff_of_true ?_ ⟨Graph.valid_of_plan planned, able⟩
        rw [left, none]
        rfl
      · refine iff_of_false (refuses.error ▸ Option.some_ne_none _) fun able => ?_
        obtain ⟨hstep, refused⟩ := refuses.refused
        exact refused (able.2 step (List.mem_of_getElem? hstep))

/-- A run in which every type echoes completes exactly if the canvas is valid and every node can
echo. If the canvas is valid and a node cannot, the run stops at the first such node of the
plan. -/
theorem echoing_completes_iff {execution : Execution}
    (h : execute ⟨.echoing, resolver⟩ draws canvasId graph input = execution) :
    (execution.report.run.status = .completed ↔
      graph.validate.valid = true ∧ ∀ node ∈ graph.nodes, CanEcho node.config) ∧
    (graph.validate.valid = true → (∃ node ∈ graph.nodes, ¬ CanEcho node.config) →
      ∃ plan k step, graph.plan = .ok plan ∧ RefusesAt resolver plan.steps execution k step) := by
  cases planned : graph.plan with
  | error error =>
      have invalid : graph.validate.valid ≠ true := by
        intro valid
        obtain ⟨_, _, _, _, plan⟩ := Graph.exists_plan_of_valid valid
        rw [planned] at plan
        contradiction
      have failed : execution.report.run.status = .failed := by
        rw [← h, execute_of_planning_error _ draws canvasId input planned]
        rfl
      rw [failed]
      refine ⟨⟨fun completed => ?_, fun able => absurd able.1 invalid⟩,
        fun valid => absurd valid invalid⟩
      contradiction
  | ok plan =>
      have valid := Graph.valid_of_plan planned
      rw [← forall_config_iff planned]
      rcases echoes_or_refuses planned _ h with ⟨-, completed, able⟩ | ⟨k, step, refuses⟩
      · refine ⟨⟨fun _ => ⟨valid, able⟩, fun _ => completed⟩, ?_⟩
        rintro - ⟨node, hnode, unable⟩
        exact absurd ((forall_config_iff planned CanEcho).1 able node hnode) unable
      · refine ⟨⟨fun completed => ?_, fun able => ?_⟩, fun _ _ => ⟨plan, k, step, rfl, refuses⟩⟩
        · rw [refuses.status] at completed
          contradiction
        · obtain ⟨hstep, refused⟩ := refuses.refused
          exact absurd (able.2 step (List.mem_of_getElem? hstep)) refused

end Echoing

/-- The answer and the guess before it both have an `emit` that is no object, and the answer is
drawn first. The run asks, then stops at the guess. -/
theorem refuses_at_guess :
    let graph : Graph :=
      ⟨[(Node.ofId "answer" .generate).withConfig "emit" .null,
          (Node.ofId "guess" .hyde).withConfig "emit" (.str "document"), .ofId "question" .query],
        [⟨"e1", "question", "guess"⟩, ⟨"e2", "guess", "answer"⟩]⟩
    let execution := execute ⟨.echoing, .standard⟩ ⟨.nil, fun n => ⟨n⟩, fun _ => default⟩ "canvas"
      graph Dict.empty
    graph.validate.valid = true ∧ (∃ node ∈ graph.nodes, ¬ CanEcho node.config) ∧
      execution.report.run.status ≠ .completed ∧
      ∃ plan step, graph.plan = .ok plan ∧ RefusesAt .standard plan.steps execution 1 step := by
  intro graph execution
  have valid : graph.validate.valid = true := by decide +kernel
  have unable : ∃ node ∈ graph.nodes, ¬ CanEcho node.config := by
    refine ⟨_, List.mem_cons_self, fun able => ?_⟩
    obtain ⟨members, object⟩ := able .null rfl
    exact Json.noConfusion object
  have h : execute ⟨.echoing, .standard⟩ ⟨.nil, fun n => ⟨n⟩, fun _ => default⟩ "canvas" graph
    Dict.empty = execution := rfl
  have dispatched : execution.report.steps.length = 2 := by decide +kernel
  clear_value execution
  obtain ⟨completes, refuses⟩ := echoing_completes_iff h
  obtain ⟨plan, k, step, planned, stops⟩ := refuses valid unable
  obtain rfl : k = 1 := by
    have last := stops.stopped.dispatched
    omega
  refine ⟨valid, unable, fun completed => ?_, plan, step, planned, stops⟩
  obtain ⟨node, hnode, refused⟩ := unable
  exact refused ((completes.1 completed).2 node hnode)

section Silent

variable {resolver : Resolver} {draws : Draws} {run : Run} {index : Nat} {outputs : Outputs}
variable {steps : List PlanStep} {records : List StepRecord}
variable {calls : List (NodeType × Invocation)} {failure : Option RunError}

/-- If nothing is emitted and the resolver is transparent, each step leaves what its type is given
where no step has completed. -/
theorem Dispatches.passed_on (transparent : resolver.Transparent)
    (silent : ∀ step ∈ steps, step.config.find? "emit" = none)
    (h : Dispatches ⟨.echoing, resolver⟩ draws run index outputs steps records calls failure)
    (passed : ∀ completed ∈ outputs.entries,
      completed.output = resolver.resolve completed.type Outputs.empty run.input) :
    ∀ completed ∈ (outputs.addRecords records).entries,
      completed.output = resolver.resolve completed.type Outputs.empty run.input := by
  generalize ho : (⟨.echoing, resolver⟩ : Orchestrator) = orchestrator at h
  induction h with
  | done => simpa using passed
  | @completed index outputs step _ _ _ _ call output _ asked answered tail ih =>
      subst ho
      obtain ⟨first, later⟩ := List.forall_mem_cons.1 silent
      rw [addRecords_completedRecord]
      refine ih later ?_
      obtain ⟨executor, registered, answer⟩ := answered
      obtain rfl := Option.some.inj ((Registry.find?_echoing _).symm.trans registered)
      have given : call.input = resolver.resolve step.nodeType Outputs.empty run.input := by
        rw [← asked]
        exact transparent.resolve_eq passed step.nodeType
      have echoed : call.input = output := by
        rw [Executor.execute_echo_of_silent (by rw [← asked]; exact first)] at answer
        exact Except.ok.inj (Completion.mk.inj answer).1
      intro completed stored
      rcases List.mem_append.1 stored with earlier | new
      · exact passed completed earlier
      · obtain rfl := List.mem_singleton.1 new
        exact echoed.symm.trans given
  | failed asked failing =>
      simpa [Outputs.addRecords, failedRecord, startedRecord, StepRecord.fail, StepRecord.started]
        using passed

end Silent

/-- If a terminal step has completed, the final output is that of one. -/
theorem exists_final {outputs : Outputs} {completed : Completed}
    (stored : completed ∈ outputs.entries) (terminal : completed.type.isTerminal = true) :
    ∃ last ∈ outputs.entries, last.type.isTerminal = true ∧ outputs.final? = some last.output := by
  cases found : outputs.entries.reverse.find? (·.type.isTerminal) with
  | none =>
      have none := List.find?_eq_none.1 found completed (List.mem_reverse.2 stored)
      contradiction
  | some last =>
      refine ⟨last, List.mem_reverse.1 (List.mem_of_find?_eq_some found), ?_, ?_⟩
      · simpa using List.find?_some found
      · simp [Outputs.final?, found]

/-- A terminal step is given the query and the documents of the run where no step has completed. -/
theorem resolve_terminal {type : NodeType} (terminal : type.isTerminal = true) (input : Record) :
    Resolver.standard.resolve type Outputs.empty input =
      input.filterKeys fun key => key = "query" ∨ key = "documents" := by
  refine Dict.ext_find? fun key => ?_
  rw [Resolver.find?_resolve_outputs_empty (Resolver.nodup_fields_standard type),
    Dict.find?_filterKeys]
  have passes : (Resolver.standard.policy type).passes? key =
      if key = "query" ∨ key = "documents" then some key else none := by
    cases type
    case generate | agent =>
      by_cases query : key = "query"
      · subst query
        rfl
      · by_cases documents : key = "documents"
        · subst documents
          rfl
        · simp [query, documents, Resolver.standard, Resolver.standardPolicy, Policy.passes?,
            Resolver.queryBinding, Resolver.documentsBinding, Ne.symm query, Ne.symm documents]
    all_goals contradiction
  rw [passes]
  by_cases kept : key = "query" ∨ key = "documents"
  · simp [kept]
  · simp [kept]

/-- A run of a valid canvas in which every type echoes and nothing is emitted completes. Whatever
the canvas looks like, the output is the query and the documents of the input, as far as it has
them. -/
theorem echoing_returns_question {draws : Draws} {canvasId : String} {graph : Graph}
    {input : Record} {execution : Execution} (valid : graph.validate.valid = true)
    (silent : ∀ node ∈ graph.nodes, node.config.find? "emit" = none)
    (h : execute ⟨.echoing, .standard⟩ draws canvasId graph input = execution) :
    execution.report.run.status = .completed ∧
    execution.report.run.output =
      some (input.filterKeys fun key => key = "query" ∨ key = "documents") := by
  obtain ⟨plan, planned⟩ : ∃ plan, graph.plan = .ok plan := by
    obtain ⟨_, _, _, _, planned⟩ := Graph.exists_plan_of_valid valid
    exact ⟨_, planned⟩
  obtain ⟨dispatches, left⟩ := execute_dispatches _ draws canvasId input planned execution h
  have quiet := (forall_config_iff planned fun config => config.find? "emit" = none).2 silent
  rcases echoes_or_refuses planned execution h with ⟨complete, completed, -⟩ | ⟨k, step, refuses⟩
  · rw [complete] at dispatches
    have passed := dispatches.passed_on Resolver.transparent_standard quiet
      (fun _ stored => absurd stored List.not_mem_nil)
    obtain ⟨origin, listed, terminal⟩ := Graph.exists_terminal_step planned
    rw [← List.nil_append (plan.steps.map _)] at listed
    obtain ⟨other, stored, rfl⟩ := List.mem_map.1 (dispatches.origins_of_completed ▸ listed)
    obtain ⟨last, chosen, final, output⟩ := exists_final stored terminal
    refine ⟨completed, ?_⟩
    rw [left, complete]
    change some ((Outputs.empty.addRecords execution.report.steps).final?.getD Dict.empty) = _
    rw [output, Option.getD_some, passed last chosen, resolve_terminal final]
    rfl
  · obtain ⟨hstep, refused⟩ := refuses.refused
    refine absurd (fun value emit => ?_) refused
    rw [quiet step (List.mem_of_getElem? hstep)] at emit
    contradiction

/-- The documents are given as null and stay null behind two steps that read them. The limit is not
passed on, although a configuration names it. -/
theorem returns_question_without_documents :
    let graph : Graph :=
      ⟨[.ofId "answer" .agent, (Node.ofId "order" .rerank).withConfig "limit" (.int 3),
          .ofId "question" .query],
        [⟨"e1", "question", "order"⟩, ⟨"e2", "order", "answer"⟩]⟩
    let input := Dict.ofList [("limit", .int 5), ("documents", .null), ("query", .str "why?")]
    let execution := execute ⟨.echoing, .standard⟩ ⟨.nil, fun n => ⟨n⟩, fun _ => default⟩ "canvas"
      graph input
    (graph.validate.valid = true ∧ ∀ node ∈ graph.nodes, node.config.find? "emit" = none) ∧
      execution.report.run.status = .completed ∧ execution.report.run.output =
        some (Dict.ofList [("documents", .null), ("query", .str "why?")]) := by
  intro graph input execution
  have valid : graph.validate.valid = true := by decide +kernel
  have silent : ∀ node ∈ graph.nodes, node.config.find? "emit" = none := by decide +kernel
  have h : execute ⟨.echoing, .standard⟩ ⟨.nil, fun n => ⟨n⟩, fun _ => default⟩ "canvas" graph
    input = execution := rfl
  have kept : input.filterKeys (fun key => key = "query" ∨ key = "documents") =
      Dict.ofList [("documents", .null), ("query", .str "why?")] := rfl
  clear_value execution
  obtain ⟨completed, output⟩ := echoing_returns_question valid silent h
  exact ⟨⟨valid, silent⟩, completed, output.trans (congrArg some kept)⟩

end Orchestrator

end Canvas
