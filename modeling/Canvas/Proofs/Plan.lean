import Canvas.Plan
import Canvas.Proofs.Graph.Order
import Canvas.Proofs.Validation

/-!
# Plans are correct compilations

A canvas has a plan exactly if it is valid: once validation passes, nothing later can fail. The plan
has one step for each node, behind the steps of all nodes that lead there, and names the nodes that
feed it, each once, in the order of their first edges.
-/

namespace Canvas

namespace Wiring

variable {wiring : Wiring} {order : List String}

theorem node?_eq_some_iff {id : String} {node : Node} :
    wiring.node? id = some node ↔ node ∈ wiring.nodes ∧ node.id = id :=
  Node.find?_eq_some_iff wiring.distinct

theorem nodesOf_ids : wiring.nodesOf wiring.ids = wiring.nodes := by
  have found : ∀ node ∈ wiring.nodes, wiring.node? node.id = some node :=
    fun node hnode => node?_eq_some_iff.2 ⟨hnode, rfl⟩
  rw [nodesOf, ids, List.filterMap_map]
  exact (List.filterMap_congr found).trans List.filterMap_some

theorem nodesOf_perm (h : order.Perm wiring.ids) : (wiring.nodesOf order).Perm wiring.nodes :=
  (h.filterMap _).trans (.of_eq nodesOf_ids)

theorem map_id_nodesOf (known : order ⊆ wiring.ids) :
    (wiring.nodesOf order).map (·.id) = order := by
  induction order with
  | nil => rfl
  | cons id rest ih =>
      obtain ⟨hid, hrest⟩ := List.cons_subset.1 known
      obtain ⟨node, hnode, rfl⟩ := List.mem_map.1 hid
      have found : wiring.node? node.id = some node := node?_eq_some_iff.2 ⟨hnode, rfl⟩
      rw [nodesOf, List.filterMap_cons_some found, List.map_cons]
      exact congrArg _ (ih hrest)

end Wiring

namespace Graph

variable {graph : Graph} {plan : Plan}

/-- The step for a node. -/
def stepOf (graph : Graph) (node : Node) : PlanStep where
  nodeId := node.id
  nodeType := node.type
  label := node.label
  config := node.config
  inputs := (graph.inputMapping.find? node.id).getD []

theorem plan_eq (graph : Graph) :
    graph.plan =
      if !graph.validate.valid then .error (.invalidGraph graph.validate.errors)
      else (Wiring.strict graph).bind fun wiring => wiring.orderedNodes.bind fun nodes =>
        .ok ⟨nodes.map graph.stepOf, graph.inputMapping⟩ := rfl

theorem plan_of_not_valid (h : graph.validate.valid = false) :
    graph.plan = .error (.invalidGraph graph.validate.errors) := by
  rw [plan_eq, h]
  rfl

/-- Once validation passes, the canvas can be built as it was drawn and has an execution order. -/
theorem Runnable.exists_order (h : graph.Runnable) :
    ∃ wiring order, Wiring.strict graph = .ok wiring ∧ wiring.order = .ok order := by
  let wiring : Wiring := ⟨graph.nodes, graph.edges, h.distinct, h.live⟩
  have built : Wiring.strict graph = .ok wiring := Wiring.strict_eq_ok_iff.2 ⟨rfl, rfl⟩
  have climbs : ∀ edge ∈ graph.edges, graph.stageOf edge.source < graph.stageOf edge.target :=
    fun edge he => h.stageOf_lt he
  obtain ⟨order, hw⟩ := wiring.exists_order_iff_acyclic.2 (Wiring.acyclic_of_rank _ climbs)
  exact ⟨wiring, order, built, hw⟩

/-- Planning a valid canvas comes down to ordering its nodes. -/
theorem plan_of_order {wiring : Wiring} {order : List String} (h : graph.validate.valid = true)
    (built : Wiring.strict graph = .ok wiring) (ordered : wiring.order = .ok order) :
    graph.plan = .ok ⟨(wiring.nodesOf order).map graph.stepOf, graph.inputMapping⟩ := by
  have nodes : wiring.orderedNodes = .ok (wiring.nodesOf order) := by
    rw [Wiring.orderedNodes, ordered]
    rfl
  rw [plan_eq, h, built]
  change wiring.orderedNodes.bind _ = _
  rw [nodes]
  rfl

theorem exists_plan_of_valid (h : graph.validate.valid = true) :
    ∃ wiring order, Wiring.strict graph = .ok wiring ∧ wiring.order = .ok order ∧
      graph.plan = .ok ⟨(wiring.nodesOf order).map graph.stepOf, graph.inputMapping⟩ := by
  obtain ⟨wiring, order, built, ordered⟩ := (valid_iff_runnable.1 h).exists_order
  exact ⟨wiring, order, built, ordered, plan_of_order h built ordered⟩

/-- A canvas has a plan exactly if it is valid. Else planning fails with the errors of validation
and with nothing else, for behind validation neither building nor ordering can fail. -/
theorem plan_ok_iff_valid (graph : Graph) :
    ((∃ plan, graph.plan = .ok plan) ↔ graph.validate.valid = true) ∧
    (graph.validate.valid = false → graph.plan = .error (.invalidGraph graph.validate.errors)) ∧
    (∀ error, graph.plan = .error error → error = .invalidGraph graph.validate.errors) ∧
    (graph.validate.valid = true →
      ∃ wiring order, Wiring.strict graph = .ok wiring ∧ wiring.order = .ok order) := by
  cases h : graph.validate.valid with
  | false =>
      have failed := plan_of_not_valid h
      refine ⟨⟨?_, by simp⟩, fun _ => failed, ?_, by simp⟩
      · rintro ⟨plan, hp⟩
        rw [failed] at hp
        contradiction
      · intro error he
        rw [failed] at he
        exact (Except.error.inj he).symm
  | true =>
      obtain ⟨wiring, order, built, ordered, planned⟩ := exists_plan_of_valid h
      refine ⟨⟨fun _ => rfl, fun _ => ⟨_, planned⟩⟩, by simp, ?_,
        fun _ => ⟨wiring, order, built, ordered⟩⟩
      intro error he
      rw [planned] at he
      contradiction

/-- The position in the edge list of the first edge from one node to another. -/
def firstEdge (graph : Graph) (source target : String) : Nat :=
  graph.edges.findIdx fun edge => edge.source = source ∧ edge.target = target

theorem mem_sourcesOf {a id : String} :
    a ∈ graph.sourcesOf id ↔ ∃ edge ∈ graph.edges, edge.source = a ∧ edge.target = id := by
  simp [sourcesOf, List.mem_eraseDups, and_assoc, and_comm]

theorem firstEdge_lt_length {a id : String} :
    graph.firstEdge a id < graph.edges.length ↔ a ∈ graph.sourcesOf id := by
  simp [firstEdge, List.findIdx_lt_length, mem_sourcesOf]

/-- One more edge adds its source behind the others, unless it is there already. -/
theorem sourcesOf_addEdge (graph : Graph) (edge : Edge) (id : String) :
    (graph.addEdge edge).sourcesOf id =
      graph.sourcesOf id ++
        if edge.target = id ∧ edge.source ∉ graph.sourcesOf id then [edge.source] else [] := by
  simp only [sourcesOf, addEdge, List.filter_append, List.map_append, List.eraseDups_append,
    List.mem_eraseDups]
  congr 1
  by_cases htarget : edge.target = id
  · by_cases hsource :
        edge.source ∈ (graph.edges.filter fun edge => edge.target = id).map (·.source)
    · simp [htarget, hsource, List.removeAll]
    · simp [htarget, hsource, List.removeAll, List.eraseDups_cons]
  · simp [htarget]

/-- One more edge leaves the first edges of known sources where they were. -/
theorem firstEdge_addEdge_of_mem {a id : String} (edge : Edge) (h : a ∈ graph.sourcesOf id) :
    (graph.addEdge edge).firstEdge a id = graph.firstEdge a id := by
  have found := firstEdge_lt_length.2 h
  rw [firstEdge, addEdge, List.findIdx_append]
  exact if_pos found

theorem length_le_firstEdge_addEdge {a id : String} (edge : Edge) (h : a ∉ graph.sourcesOf id) :
    graph.edges.length ≤ (graph.addEdge edge).firstEdge a id := by
  have missing := mt firstEdge_lt_length.1 h
  rw [firstEdge, addEdge, List.findIdx_append]
  refine Nat.le_trans (Nat.le_add_left _ _) (Nat.le_of_eq (if_neg missing).symm)

/-- Sources are listed in the order of their first edges. -/
theorem pairwise_sourcesOf (graph : Graph) (id : String) :
    (graph.sourcesOf id).Pairwise fun a b => graph.firstEdge a id < graph.firstEdge b id := by
  obtain ⟨nodes, edges⟩ := graph
  induction edges using List.reverseRecOn with
  | nil => exact .nil
  | append_singleton edges edge ih =>
      let before : Graph := ⟨nodes, edges⟩
      change ((before.addEdge edge).sourcesOf id).Pairwise fun a b =>
        (before.addEdge edge).firstEdge a id < (before.addEdge edge).firstEdge b id
      rw [sourcesOf_addEdge, List.pairwise_append]
      refine ⟨?_, ?_, ?_⟩
      · refine ih.imp_of_mem fun {a b} ha hb lt => ?_
        rw [firstEdge_addEdge_of_mem edge ha, firstEdge_addEdge_of_mem edge hb]
        exact lt
      · split <;> simp
      · intro a ha b hb
        split at hb
        · rename_i added
          obtain rfl := List.mem_singleton.1 hb
          rw [firstEdge_addEdge_of_mem edge ha]
          exact Nat.lt_of_lt_of_le (firstEdge_lt_length.2 ha)
            (length_le_firstEdge_addEdge edge added.2)
        · simp at hb

theorem nodup_sourcesOf (graph : Graph) (id : String) : (graph.sourcesOf id).Nodup := by
  refine (graph.pairwise_sourcesOf id).imp ?_
  rintro a b lt rfl
  exact Nat.lt_irrefl _ lt

theorem find?_inputMapping (graph : Graph) (id : String) :
    graph.inputMapping.find? id = if id ∈ graph.ids then some (graph.sourcesOf id) else none :=
  Dict.find?_ofList_map graph.ids graph.sourcesOf id

theorem inputs_stepOf {node : Node} (h : node.id ∈ graph.ids) :
    (graph.stepOf node).inputs = graph.sourcesOf node.id := by
  rw [stepOf, find?_inputMapping, if_pos h, Option.getD_some]

end Graph

namespace PlanStep

/-- The node that a step stands for. -/
def node (step : PlanStep) : Node := ⟨step.nodeId, step.nodeType, step.label, step.config⟩

end PlanStep

namespace Plan

variable {plan : Plan} {graph : Graph} {a b : String}

/-- The ids of the nodes in execution order. -/
def nodeIds (plan : Plan) : List String := plan.steps.map (·.nodeId)

/-- Whether a step of one node stands before a step of another. -/
def Before (plan : Plan) (a b : String) : Prop :=
  ∃ i j : Nat, i < j ∧ plan.nodeIds[i]? = some a ∧ plan.nodeIds[j]? = some b

/-- What a plan owes to its canvas. There is one step for each node, behind the steps of all nodes
from which the node can be reached. The input mapping lists for every node, and for nothing else,
the sources of its edges, each once and in the order of its first edge. -/
structure Compiles (plan : Plan) (graph : Graph) : Prop where
  nodes : (plan.steps.map PlanStep.node).Perm graph.nodes
  distinct : plan.nodeIds.Nodup
  ordered : ∀ edge ∈ graph.edges, plan.Before edge.source edge.target
  behind : ∀ a walk b, Walk a walk b → walk ⊆ graph.edges → plan.Before a b
  keys : ∀ id, id ∈ plan.inputMapping.keys ↔ id ∈ graph.ids
  sources : ∀ id sources, plan.inputMapping.find? id = some sources →
    sources.Nodup ∧
    (∀ a, a ∈ sources ↔ ∃ edge ∈ graph.edges, edge.source = a ∧ edge.target = id) ∧
    sources.Pairwise fun a b => graph.firstEdge a id < graph.firstEdge b id
  inputs : ∀ (i : Nat) (step : PlanStep), plan.steps[i]? = some step →
    plan.inputMapping.find? step.nodeId = some step.inputs ∧
    ∀ a ∈ step.inputs, ∃ j < i, plan.nodeIds[j]? = some a

theorem before_of_idxOf_lt (hb : b ∈ plan.nodeIds)
    (lt : plan.nodeIds.idxOf a < plan.nodeIds.idxOf b) : plan.Before a b := by
  have ha : a ∈ plan.nodeIds :=
    List.idxOf_lt_length_iff.1 (Nat.lt_trans lt (List.idxOf_lt_length_of_mem hb))
  exact ⟨_, _, lt, List.getElem?_idxOf ha, List.getElem?_idxOf hb⟩

/-- A node is listed at one position only. -/
theorem Before.exists_lt {i : Nat} (h : plan.Before a b) (distinct : plan.nodeIds.Nodup)
    (hi : plan.nodeIds[i]? = some b) : ∃ j < i, plan.nodeIds[j]? = some a := by
  obtain ⟨j, k, lt, ha, hb⟩ := h
  have hk : k < plan.nodeIds.length := (List.getElem?_eq_some_iff.1 hb).1
  obtain rfl : k = i := (List.getElem?_inj hk distinct).1 (hb.trans hi.symm)
  exact ⟨j, lt, ha⟩

theorem Before.exists_gt {i : Nat} (h : plan.Before a b) (distinct : plan.nodeIds.Nodup)
    (hi : plan.nodeIds[i]? = some a) : ∃ j, i < j ∧ plan.nodeIds[j]? = some b := by
  obtain ⟨k, j, lt, ha, hb⟩ := h
  have hk : k < plan.nodeIds.length := (List.getElem?_eq_some_iff.1 ha).1
  obtain rfl : k = i := (List.getElem?_inj hk distinct).1 (ha.trans hi.symm)
  exact ⟨j, lt, hb⟩

end Plan

namespace Graph

variable {graph : Graph} {plan : Plan}

theorem valid_of_plan (h : graph.plan = .ok plan) : graph.validate.valid = true := by
  cases hv : graph.validate.valid with
  | true => rfl
  | false =>
      rw [plan_of_not_valid hv] at h
      contradiction

theorem not_valid_of_planning_error {error : PlanningError} (h : graph.plan = .error error) :
    graph.validate.valid ≠ true := by
  intro valid
  obtain ⟨_, _, _, _, planned⟩ := exists_plan_of_valid valid
  rw [h] at planned
  contradiction

/-- The steps of a plan are those of the nodes, reordered so that every edge points forward. -/
theorem exists_nodes_of_plan (h : graph.plan = .ok plan) :
    ∃ nodes : List Node, nodes.Perm graph.nodes ∧
      plan = ⟨nodes.map graph.stepOf, graph.inputMapping⟩ ∧
      ∀ edge ∈ graph.edges,
        (nodes.map (·.id)).idxOf edge.source < (nodes.map (·.id)).idxOf edge.target := by
  obtain ⟨wiring, order, built, ordered, planned⟩ := exists_plan_of_valid (valid_of_plan h)
  obtain ⟨hnodes, hedges⟩ := Wiring.strict_eq_ok_iff.1 built
  obtain ⟨complete, legal⟩ := wiring.order_legal ordered
  have ids : (wiring.nodesOf order).map (·.id) = order := Wiring.map_id_nodesOf complete.subset
  refine ⟨wiring.nodesOf order, hnodes ▸ Wiring.nodesOf_perm complete, ?_, ?_⟩
  · exact (Except.ok.inj (planned.symm.trans h)).symm
  · rw [ids, ← hedges]
    exact legal.idxOf_lt complete

/-- Every plan is a correct compilation of its canvas. -/
theorem plan_compiles (h : graph.plan = .ok plan) : plan.Compiles graph := by
  have runnable := valid_iff_runnable.1 (valid_of_plan h)
  obtain ⟨nodes, complete, rfl, forward⟩ := exists_nodes_of_plan h
  let plan : Plan := ⟨nodes.map graph.stepOf, graph.inputMapping⟩
  have nodeIds : plan.nodeIds = nodes.map (·.id) := by
    simp [plan, Plan.nodeIds, stepOf, Function.comp_def]
  have reordered : plan.nodeIds.Perm graph.ids := nodeIds ▸ complete.map _
  have distinct : plan.nodeIds.Nodup := reordered.nodup_iff.2 runnable.distinct
  have climbs : ∀ edge ∈ graph.edges,
      plan.nodeIds.idxOf edge.source < plan.nodeIds.idxOf edge.target := nodeIds ▸ forward
  have target_mem : ∀ edge ∈ graph.edges, edge.target ∈ plan.nodeIds :=
    fun edge he => reordered.mem_iff.2 (runnable.live edge he).2
  have ordered : ∀ edge ∈ graph.edges, plan.Before edge.source edge.target :=
    fun edge he => Plan.before_of_idxOf_lt (target_mem edge he) (climbs edge he)
  refine ⟨?_, distinct, ordered, ?_, ?_, ?_, ?_⟩
  · simpa [plan, PlanStep.node, stepOf, Function.comp_def] using complete
  · intro a walk b hwalk within
    obtain ⟨last, hlast, rfl⟩ := hwalk.exists_last
    refine Plan.before_of_idxOf_lt (target_mem last (within hlast)) ?_
    exact hwalk.rank_lt plan.nodeIds.idxOf fun edge he => climbs edge (within he)
  · intro id
    simp [Dict.mem_keys, find?_inputMapping]
  · intro id sources found
    change graph.inputMapping.find? id = some sources at found
    rw [find?_inputMapping] at found
    split at found
    · obtain rfl := Option.some.inj found
      exact ⟨graph.nodup_sourcesOf id, fun a => mem_sourcesOf, graph.pairwise_sourcesOf id⟩
    · contradiction
  · intro i step hstep
    obtain ⟨node, hi, rfl⟩ : ∃ node, nodes[i]? = some node ∧ graph.stepOf node = step := by
      simpa [plan] using hstep
    have known : node.id ∈ graph.ids :=
      List.mem_map_of_mem (complete.mem_iff.1 (List.mem_of_getElem? hi))
    rw [inputs_stepOf known]
    refine ⟨(graph.find?_inputMapping node.id).trans (if_pos known), fun a ha => ?_⟩
    obtain ⟨edge, he, rfl, htarget⟩ := mem_sourcesOf.1 ha
    refine (ordered edge he).exists_lt distinct ?_
    rw [nodeIds, List.getElem?_map, hi, htarget]
    rfl

/-- Two edges from the question to the answer are one input, listed before the input whose edge was
drawn later. -/
theorem compiles_parallel_edges :
    let graph : Graph :=
      ⟨[.ofId "answer" .generate, .ofId "ranked" .rerank, .ofId "question" .query],
        [⟨"e1", "question", "answer"⟩, ⟨"e2", "question", "ranked"⟩, ⟨"e3", "ranked", "answer"⟩,
          ⟨"e4", "question", "answer"⟩]⟩
    ∃ plan, graph.plan = .ok plan ∧ plan.Compiles graph ∧
      plan.nodeIds = ["question", "ranked", "answer"] ∧
      plan.inputMapping.find? "answer" = some ["question", "ranked"] :=
  ⟨_, rfl, plan_compiles rfl, by decide, by decide⟩

end Graph

end Canvas
