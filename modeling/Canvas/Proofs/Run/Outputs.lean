import Canvas.Proofs.Graph.Entries
import Canvas.Proofs.Run.Dispatch

/-!
# The outputs that a step finds

When a step of a plan is dispatched, every step before it has completed. So it finds one output for
each of them, in the order of the plan, whatever the executors answered. If they answer by the
number of the step alone, the outputs themselves are known.
-/

namespace Canvas

/-- The text of a value, if it is one. -/
def Json.text? : Json → Option String
  | str text => some text
  | _ => none

/-- The node of an output, with its type. -/
def Completed.origin (completed : Completed) : String × NodeType :=
  (completed.nodeId, completed.type)

/-- The node of a step, with its type. -/
def PlanStep.origin (step : PlanStep) : String × NodeType := (step.nodeId, step.nodeType)

/-- The nodes of a canvas with their types, in execution order, if it has a plan. -/
def Graph.origins? (graph : Graph) : Option (List (String × NodeType)) :=
  graph.plan.toOption.map fun plan => plan.steps.map PlanStep.origin

theorem Graph.exists_plan_of_origins {graph : Graph} {origins : List (String × NodeType)}
    (h : graph.origins? = some origins) :
    ∃ plan, graph.plan = .ok plan ∧ plan.steps.map PlanStep.origin = origins := by
  unfold origins? at h
  cases planned : graph.plan with
  | error error =>
      rw [planned] at h
      contradiction
  | ok plan =>
      rw [planned] at h
      exact ⟨plan, rfl, Option.some.inj h⟩

/-- A plan has a terminal step. -/
theorem Graph.exists_terminal_step {graph : Graph} {plan : Plan} (planned : graph.plan = .ok plan) :
    ∃ origin ∈ plan.steps.map PlanStep.origin, origin.2.isTerminal = true := by
  have runnable := valid_iff_runnable.1 (valid_of_plan planned)
  obtain ⟨node, hnode, terminal⟩ := runnable.terminal
  obtain ⟨nodes, complete, rfl, -⟩ := exists_nodes_of_plan planned
  refine ⟨(node.id, node.type), ?_, NodeType.isTerminal_iff.2 terminal⟩
  refine List.mem_map.2 ⟨graph.stepOf node, ?_, rfl⟩
  exact List.mem_map_of_mem (complete.mem_iff.2 hnode)

/-- A registry in which each executor answers with what is written for the number of the step. -/
def Registry.scripted (answer : Nat → Record) : Registry :=
  empty.registerAll <| NodeType.all.map fun type =>
    ⟨type, "Answers by the number of the step", fun call => ⟨.ok (answer call.index), 0⟩⟩

theorem Registry.find?_scripted (answer : Nat → Record) (type : NodeType) :
    ∃ executor, (scripted answer).find? type = some executor ∧
      ∀ call, executor.execute call = ⟨.ok (answer call.index), 0⟩ := by
  cases type
  all_goals exact ⟨_, rfl, fun _ => rfl⟩

namespace Orchestrator

section Dispatches

variable {orchestrator : Orchestrator} {draws : Draws} {run : Run} {index i : Nat}
variable {steps : List PlanStep} {outputs : Outputs} {records : List StepRecord}
variable {record : StepRecord} {calls : List (NodeType × Invocation)} {failure : Option RunError}

/-- A step finds the outputs of the steps before it, in their order. -/
theorem Dispatches.origins_take
    (h : orchestrator.Dispatches draws run index outputs steps records calls failure)
    (hrecord : records[i]? = some record) :
    (outputs.addRecords (records.take i)).entries.map Completed.origin =
      outputs.entries.map Completed.origin ++ (steps.take i).map PlanStep.origin := by
  induction h generalizing i with
  | done => simp at hrecord
  | completed asked answer tail ih =>
      cases i with
      | zero => simp
      | succ i =>
          rw [List.take_succ_cons, addRecords_completedRecord, ih hrecord]
          simp [Outputs.insert, Completed.origin, PlanStep.origin]
  | failed asked failing =>
      cases i with
      | zero => simp
      | succ i => simp at hrecord

/-- If no step fails, all of them leave an output, in their order. -/
theorem Dispatches.origins_of_completed
    (h : orchestrator.Dispatches draws run index outputs steps records calls none) :
    (outputs.addRecords records).entries.map Completed.origin =
      outputs.entries.map Completed.origin ++ steps.map PlanStep.origin := by
  generalize hfailure : none = failure at h
  induction h with
  | done => simp
  | completed asked answer tail ih =>
      rw [addRecords_completedRecord, ih hfailure]
      simp [Outputs.insert, Completed.origin, PlanStep.origin]
  | failed asked failing => contradiction

/-- Executors that answer by the number of the step complete every step and leave what is written
for it. -/
theorem Dispatches.scripted {resolver : Resolver} {answer : Nat → Record}
    (h : Dispatches ⟨.scripted answer, resolver⟩ draws run index outputs steps records calls
      failure) :
    records.length = steps.length ∧ ∀ i, (outputs.addRecords (records.take i)).entries =
      outputs.entries ++ ((steps.take i).zipIdx index).map fun (step, k) =>
        ⟨step.nodeId, step.nodeType, answer k⟩ := by
  generalize ho : (⟨.scripted answer, resolver⟩ : Orchestrator) = orchestrator at h
  induction h with
  | done => simp
  | @completed index outputs step _ records _ _ call output _ asked answered tail ih =>
      subst ho
      obtain ⟨executor, registered, answer_eq⟩ := answered
      obtain ⟨scripted, found, answers⟩ := Registry.find?_scripted answer step.nodeType
      obtain rfl : executor = scripted := Option.some.inj (registered.symm.trans found)
      obtain rfl : answer call.index = output := by
        rw [answers] at answer_eq
        exact Except.ok.inj (Completion.mk.inj answer_eq).1
      obtain rfl : call.index = index := by
        rw [← asked]
        rfl
      obtain ⟨length, entries⟩ := ih
      refine ⟨congrArg (· + 1) length, fun i => ?_⟩
      cases i with
      | zero => simp
      | succ i =>
          rw [List.take_succ_cons, addRecords_completedRecord, entries]
          simp [Outputs.insert]
  | @failed _ _ step _ _ call _ _ asked failing =>
      subst ho
      obtain ⟨scripted, found, answers⟩ := Registry.find?_scripted answer step.nodeType
      cases failing with
      | refused registered refusal =>
          obtain rfl := Option.some.inj (registered.symm.trans found)
          rw [answers] at refusal
          exact absurd (Completion.mk.inj refusal).1 (by simp)
      | unserved unregistered => simp [found] at unregistered

end Dispatches

section Execute

variable {orchestrator : Orchestrator} {draws : Draws} {canvasId : String} {graph : Graph}
variable {input : Record} {plan : Plan} {execution : Execution} {i : Nat} {record : StepRecord}

theorem origins_outputsBefore (planned : graph.plan = .ok plan)
    (h : orchestrator.execute draws canvasId graph input = execution)
    (hrecord : execution.report.steps[i]? = some record) :
    (execution.outputsBefore i).entries.map Completed.origin =
      (plan.steps.take i).map PlanStep.origin := by
  have dispatches := (orchestrator.execute_dispatches draws canvasId input planned execution h).1
  exact dispatches.origins_take hrecord

theorem nodeIds_outputsBefore (planned : graph.plan = .ok plan)
    (h : orchestrator.execute draws canvasId graph input = execution)
    (hrecord : execution.report.steps[i]? = some record) :
    (execution.outputsBefore i).entries.map (·.nodeId) = plan.nodeIds.take i := by
  have firsts := congrArg (List.map Prod.fst) (origins_outputsBefore planned h hrecord)
  rw [List.map_map, List.map_map] at firsts
  exact firsts.trans List.map_take

/-- A step finds one output only of each node. -/
theorem nodup_outputsBefore (planned : graph.plan = .ok plan)
    (h : orchestrator.execute draws canvasId graph input = execution)
    (hrecord : execution.report.steps[i]? = some record) :
    ((execution.outputsBefore i).entries.map (·.nodeId)).Nodup := by
  rw [nodeIds_outputsBefore planned h hrecord]
  exact (Graph.nodup_nodeIds planned).sublist (List.take_sublist i _)

theorem outputsBefore_scripted {resolver : Resolver} {answer : Nat → Record}
    (planned : graph.plan = .ok plan)
    (h : execute ⟨.scripted answer, resolver⟩ draws canvasId graph input = execution) :
    execution.report.steps.length = plan.steps.length ∧ ∀ i,
      (execution.outputsBefore i).entries = (plan.steps.take i).zipIdx.map fun (step, k) =>
        ⟨step.nodeId, step.nodeType, answer k⟩ := by
  have dispatches := (execute_dispatches _ draws canvasId input planned execution h).1
  exact dispatches.scripted

theorem mem_outputsBefore_scripted {resolver : Resolver} {answer : Nat → Record}
    {completed : Completed} (planned : graph.plan = .ok plan)
    (h : execute ⟨.scripted answer, resolver⟩ draws canvasId graph input = execution) :
    completed ∈ (execution.outputsBefore i).entries ↔
      ∃ k < i, ∃ step, plan.steps[k]? = some step ∧
        completed = ⟨step.nodeId, step.nodeType, answer k⟩ := by
  rw [(outputsBefore_scripted planned h).2, List.mem_map]
  constructor
  · rintro ⟨⟨step, k⟩, hk, rfl⟩
    rw [List.mem_zipIdx_iff_getElem?, List.getElem?_take] at hk
    split at hk
    · rename_i early
      exact ⟨k, early, step, hk, rfl⟩
    · contradiction
  · rintro ⟨k, early, step, hk, rfl⟩
    refine ⟨(step, k), List.mem_zipIdx_iff_getElem?.2 ?_, rfl⟩
    rw [List.getElem?_take, if_pos early, hk]

end Execute

end Orchestrator

end Canvas
