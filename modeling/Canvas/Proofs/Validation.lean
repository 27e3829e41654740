import Canvas.Proofs.Graph.BackEdge
import Canvas.Proofs.Graph.Building
import Canvas.Proofs.Lookup
import Canvas.Validation
import Mathlib.Data.List.Basic

/-!
# What makes a canvas valid

A canvas is valid exactly if it is `Graph.Runnable`, a condition that does not mention cycles. They
are excluded all the same: node types can be ranked so that every allowed connection climbs, hence
each cycle contains an edge that is reported as a connection of the wrong types.
-/

namespace Canvas

namespace NodeType

/-- A rank of the node types along which every allowed connection climbs. -/
def stage : NodeType → Nat
  | query => 0
  | hyde => 1
  | embed => 2
  | retrieve => 3
  | rerank => 4
  | judge => 5
  | agent => 6
  | generate => 7

theorem stage_lt_of_feeds {source target : NodeType} (h : source.feeds target = true) :
    source.stage < target.stage := by
  revert h
  cases source <;> cases target <;> decide

theorem feeds_iff {source target : NodeType} :
    source.feeds target = true ↔ target ∈ source.targets := by
  simp [feeds]

theorem isEntry_iff {type : NodeType} : type.isEntry = true ↔ type = .query := by
  cases type <;> decide

theorem isTerminal_iff {type : NodeType} :
    type.isTerminal = true ↔ type = .generate ∨ type = .agent := by
  cases type <;> decide

end NodeType

/-- Of nodes with distinct ids the one with an id is found. -/
theorem Node.find?_eq_some_iff {nodes : List Node} (distinct : (nodes.map (·.id)).Nodup)
    {id : String} {node : Node} :
    nodes.find? (·.id = id) = some node ↔ node ∈ nodes ∧ node.id = id :=
  find?_key_eq_some_iff distinct

namespace Graph

variable {graph : Graph} {edge : Edge} {issue : Issue} {id : String}

/-- The condition for a canvas to be run. The last field is the allow-list of connections. -/
structure Runnable (graph : Graph) : Prop where
  distinct : graph.ids.Nodup
  entry : ∃ node ∈ graph.nodes, node.type = .query
  terminal : ∃ node ∈ graph.nodes, node.type = .generate ∨ node.type = .agent
  live : ∀ edge ∈ graph.edges, edge.source ∈ graph.ids ∧ edge.target ∈ graph.ids
  allowed : ∀ edge ∈ graph.edges, ∀ source ∈ graph.nodes, ∀ target ∈ graph.nodes,
    source.id = edge.source → target.id = edge.target → target.type ∈ source.type.targets

/-- A walk back to its start along edges whose ends are nodes. -/
def LiveCycle (graph : Graph) (cycle : List Edge) : Prop :=
  (∃ id, Walk id cycle id) ∧ ∀ edge ∈ cycle, edge ∈ graph.edges ∧ graph.isLive edge = true

theorem mem_lenient_edges :
    edge ∈ (Wiring.lenient graph).edges ↔ edge ∈ graph.edges ∧ graph.isLive edge = true := by
  rw [Wiring.edges_lenient, List.mem_filter]

theorem exists_findNode? (h : id ∈ graph.ids) :
    ∃ node, graph.findNode? id = some node ∧ node.id = id := by
  cases hf : graph.findNode? id with
  | none =>
      obtain ⟨node, hnode, rfl⟩ := List.mem_map.1 h
      simpa using List.find?_eq_none.1 hf node hnode
  | some node => exact ⟨node, rfl, by simpa using List.find?_some hf⟩

theorem duplicateIssues_eq_nil_iff {seen : List String} {nodes : List Node} :
    duplicateIssues seen nodes = [] ↔
      (nodes.map (·.id)).Nodup ∧ ∀ node ∈ nodes, node.id ∉ seen := by
  induction nodes generalizing seen with
  | nil => simp [duplicateIssues]
  | cons node rest ih =>
      rw [duplicateIssues]
      split
      · rename_i repeated
        refine iff_of_false (List.cons_ne_nil _ _) fun h => ?_
        exact h.2 node List.mem_cons_self (List.contains_iff_mem.1 repeated)
      · rename_i fresh
        have unseen : node.id ∉ seen := by simpa using fresh
        have later : (∀ other ∈ rest, other.id ∉ node.id :: seen) ↔
            node.id ∉ rest.map (·.id) ∧ ∀ other ∈ rest, other.id ∉ seen := by
          simp only [List.mem_cons, not_or, List.mem_map, not_exists, not_and, forall_and]
        rw [ih, later, List.map_cons, List.nodup_cons, List.forall_mem_cons]
        tauto

theorem missingEntryIssues_eq_nil_iff :
    graph.missingEntryIssues = [] ↔ ∃ node ∈ graph.nodes, node.type = .query := by
  simp [missingEntryIssues, entries, NodeType.isEntry_iff]

theorem missingTerminalIssues_eq_nil_iff :
    graph.missingTerminalIssues = [] ↔
      ∃ node ∈ graph.nodes, node.type = .generate ∨ node.type = .agent := by
  have any_iff : graph.nodes.any (·.type.isTerminal) = true ↔
      ∃ node ∈ graph.nodes, node.type = .generate ∨ node.type = .agent := by
    simp only [List.any_eq_true, NodeType.isTerminal_iff]
  rw [← any_iff, missingTerminalIssues]
  split <;> simp_all

theorem sourceIssues_eq_nil_iff : graph.sourceIssues edge = [] ↔ edge.source ∈ graph.ids := by
  simp [sourceIssues]

theorem targetIssues_eq_nil_iff : graph.targetIssues edge = [] ↔ edge.target ∈ graph.ids := by
  simp [targetIssues]

theorem connectionIssues_eq_nil_iff {source target : Node}
    (hs : graph.findNode? edge.source = some source)
    (ht : graph.findNode? edge.target = some target) :
    graph.connectionIssues edge = [] ↔ target.type ∈ source.type.targets := by
  rw [← NodeType.feeds_iff]
  simp [connectionIssues, hs, ht]

theorem edgeIssues_eq_nil_iff :
    graph.edgeIssues = [] ↔ ∀ edge ∈ graph.edges,
      (edge.source ∈ graph.ids ∧ edge.target ∈ graph.ids) ∧ graph.connectionIssues edge = [] := by
  simp only [edgeIssues, List.flatMap_eq_nil_iff, List.append_eq_nil_iff, sourceIssues_eq_nil_iff,
    targetIssues_eq_nil_iff]

/-- The stage of the node with an id. -/
def stageOf (graph : Graph) (id : String) : Nat :=
  (graph.findNode? id).elim 0 (·.type.stage)

/-- A live edge climbs unless its connection is reported. -/
theorem stageOf_lt (live : graph.isLive edge = true) (allowed : graph.connectionIssues edge = []) :
    graph.stageOf edge.source < graph.stageOf edge.target := by
  obtain ⟨hs, ht⟩ := isLive_iff.1 live
  obtain ⟨source, fs, _⟩ := exists_findNode? hs
  obtain ⟨target, ft, _⟩ := exists_findNode? ht
  have feeds := NodeType.feeds_iff.2 ((connectionIssues_eq_nil_iff fs ft).1 allowed)
  simpa [stageOf, fs, ft] using NodeType.stage_lt_of_feeds feeds

theorem acyclic_lenient (allowed : ∀ edge ∈ graph.edges, graph.connectionIssues edge = []) :
    (Wiring.lenient graph).Acyclic := by
  apply Wiring.acyclic_of_rank graph.stageOf
  intro edge he
  obtain ⟨he, live⟩ := mem_lenient_edges.1 he
  exact stageOf_lt live (allowed edge he)

/-- Every cycle has an edge whose connection is reported. -/
theorem LiveCycle.exists_connectionIssues {cycle : List Edge} (h : graph.LiveCycle cycle) :
    ∃ edge ∈ cycle, graph.connectionIssues edge ≠ [] := by
  obtain ⟨⟨id, walk⟩, live⟩ := h
  by_contra allowed
  push Not at allowed
  exact Nat.lt_irrefl _ <|
    walk.rank_lt graph.stageOf fun edge he => stageOf_lt (live edge he).2 (allowed edge he)

theorem mem_errors_of_mem_connectionIssues (he : edge ∈ graph.edges)
    (h : issue ∈ graph.connectionIssues edge) : issue ∈ graph.errors := by
  have reported : issue ∈ graph.edgeIssues :=
    List.mem_flatMap.2 ⟨edge, he, List.mem_append_right _ h⟩
  exact List.mem_append_left _ (List.mem_append_right _ reported)

theorem of_mem_connectionIssues (h : issue ∈ graph.connectionIssues edge) :
    issue.code = .invalidConnection ∧ issue.nodeId = some edge.target ∧
      issue.edgeId = some edge.id := by
  unfold connectionIssues at h
  split at h
  · rename_i source target fs ft
    split at h
    · simp at h
    · obtain rfl := List.mem_singleton.1 h
      have : target.id = edge.target := by simpa using List.find?_some ft
      exact ⟨rfl, by simp [this], rfl⟩
  · simp at h

theorem valid_iff_errors_eq_nil : graph.validate.valid = true ↔ graph.errors = [] :=
  List.isEmpty_iff

theorem Runnable.connectionIssues_eq_nil (h : graph.Runnable) (he : edge ∈ graph.edges) :
    graph.connectionIssues edge = [] := by
  obtain ⟨hs, ht⟩ := h.live edge he
  obtain ⟨source, fs, hsource⟩ := exists_findNode? hs
  obtain ⟨target, ft, htarget⟩ := exists_findNode? ht
  exact (connectionIssues_eq_nil_iff fs ft).2 <|
    h.allowed edge he source (List.mem_of_find?_eq_some fs) target
      (List.mem_of_find?_eq_some ft) hsource htarget

/-- On a runnable canvas every edge climbs. -/
theorem Runnable.stageOf_lt (h : graph.Runnable) (he : edge ∈ graph.edges) :
    graph.stageOf edge.source < graph.stageOf edge.target :=
  Graph.stageOf_lt (isLive_iff.2 (h.live edge he)) (h.connectionIssues_eq_nil he)

theorem errors_eq_nil_iff_runnable : graph.errors = [] ↔ graph.Runnable := by
  simp only [errors, List.append_eq_nil_iff, duplicateIssues_eq_nil_iff,
    missingEntryIssues_eq_nil_iff, missingTerminalIssues_eq_nil_iff, edgeIssues_eq_nil_iff]
  constructor
  · rintro ⟨⟨⟨⟨unrepeated, entry⟩, terminal⟩, edges⟩, _⟩
    have distinct : graph.ids.Nodup := unrepeated.1
    refine ⟨distinct, entry, terminal, fun edge he => (edges edge he).1, ?_⟩
    intro edge he source hs target ht hsource htarget
    have fs := (Node.find?_eq_some_iff distinct).2 ⟨hs, hsource⟩
    have ft := (Node.find?_eq_some_iff distinct).2 ⟨ht, htarget⟩
    exact (connectionIssues_eq_nil_iff fs ft).1 (edges edge he).2
  · intro runnable
    have allowed : ∀ edge ∈ graph.edges, graph.connectionIssues edge = [] :=
      fun edge he => runnable.connectionIssues_eq_nil he
    refine ⟨⟨⟨⟨⟨runnable.distinct, by simp⟩, runnable.entry⟩, runnable.terminal⟩,
      fun edge he => ⟨runnable.live edge he, allowed edge he⟩⟩, ?_⟩
    refine List.map_eq_nil_iff.2 (List.eq_nil_iff_forall_not_mem.2 fun edge he => ?_)
    exact acyclic_lenient allowed _ (Wiring.leads_of_mem_cycleEdges he)

theorem valid_iff_runnable : graph.validate.valid = true ↔ graph.Runnable :=
  valid_iff_errors_eq_nil.trans errors_eq_nil_iff_runnable

theorem code_of_mem_duplicateIssues {seen : List String} {nodes : List Node}
    (h : issue ∈ duplicateIssues seen nodes) : issue.code = .duplicateNodeId := by
  induction nodes generalizing seen with
  | nil => simp [duplicateIssues] at h
  | cons node rest ih =>
      unfold duplicateIssues at h
      split at h
      · rcases List.mem_cons.1 h with rfl | h
        · rfl
        · exact ih h
      · exact ih h

theorem code_of_mem_missingEntryIssues (h : issue ∈ graph.missingEntryIssues) :
    issue.code = .missingEntryNode := by
  obtain ⟨_, h⟩ := List.mem_ite_nil_right.1 h
  exact (List.mem_singleton.1 h) ▸ rfl

theorem code_of_mem_missingTerminalIssues (h : issue ∈ graph.missingTerminalIssues) :
    issue.code = .missingTerminalNode := by
  obtain ⟨_, h⟩ := List.mem_ite_nil_left.1 h
  exact (List.mem_singleton.1 h) ▸ rfl

theorem code_of_mem_sourceIssues (h : issue ∈ graph.sourceIssues edge) :
    issue.code = .invalidSource := by
  obtain ⟨_, h⟩ := List.mem_ite_nil_left.1 h
  exact (List.mem_singleton.1 h) ▸ rfl

theorem code_of_mem_targetIssues (h : issue ∈ graph.targetIssues edge) :
    issue.code = .invalidTarget := by
  obtain ⟨_, h⟩ := List.mem_ite_nil_left.1 h
  exact (List.mem_singleton.1 h) ▸ rfl

/-- The errors that are found at nodes and edges one by one. -/
def localIssues (graph : Graph) : List Issue :=
  duplicateIssues [] graph.nodes ++ graph.missingEntryIssues ++ graph.missingTerminalIssues
    ++ graph.edgeIssues

theorem code_of_mem_cycleIssues (h : issue ∈ (Wiring.lenient graph).cycleIssues) :
    issue.code = .cycleDetected := by
  obtain ⟨edge, _, rfl⟩ := List.mem_map.1 h
  rfl

section Filter

variable {issues : List Issue} {code : IssueCode}

/-- Issues with one code are kept all or none by a filter of codes. -/
theorem filter_of_code (codes : ∀ issue ∈ issues, issue.code = code) (kept : IssueCode → Bool) :
    issues.filter (kept ·.code) = if kept code then issues else [] := by
  have same : issues.filter (kept ·.code) = issues.filter fun _ => kept code :=
    List.filter_congr fun issue hissue => by rw [codes issue hissue]
  rw [same]
  cases kept code with
  | false => simp
  | true => simp

/-- What a filter of codes leaves of the errors at one edge. -/
def issuesAt (graph : Graph) (kept : IssueCode → Bool) (edge : Edge) : List Issue :=
  (if kept .invalidSource then graph.sourceIssues edge else []) ++
    (if kept .invalidTarget then graph.targetIssues edge else []) ++
    (if kept .invalidConnection then graph.connectionIssues edge else [])

/-- What a filter of codes leaves of all errors: each check has codes of its own. -/
theorem filter_errors (graph : Graph) (kept : IssueCode → Bool) :
    graph.errors.filter (kept ·.code) =
      (if kept .duplicateNodeId then duplicateIssues [] graph.nodes else []) ++
      (if kept .missingEntryNode then graph.missingEntryIssues else []) ++
      (if kept .missingTerminalNode then graph.missingTerminalIssues else []) ++
      graph.edges.flatMap (graph.issuesAt kept) ++
      (if kept .cycleDetected then (Wiring.lenient graph).cycleIssues else []) := by
  have atEdge (edge : Edge) :
      (graph.sourceIssues edge ++ graph.targetIssues edge ++ graph.connectionIssues edge).filter
        (kept ·.code) = graph.issuesAt kept edge := by
    rw [List.filter_append, List.filter_append,
      filter_of_code fun _ h => code_of_mem_sourceIssues h,
      filter_of_code fun _ h => code_of_mem_targetIssues h,
      filter_of_code fun _ h => (of_mem_connectionIssues h).1]
    rfl
  simp only [errors, List.filter_append, edgeIssues, List.filter_flatMap, atEdge]
  rw [filter_of_code fun _ h => code_of_mem_duplicateIssues h,
    filter_of_code fun _ h => code_of_mem_missingEntryIssues h,
    filter_of_code fun _ h => code_of_mem_missingTerminalIssues h,
    filter_of_code fun _ h => code_of_mem_cycleIssues h]

/-- The issues about cycles are those of the cycle check. -/
theorem filter_cycleDetected (graph : Graph) :
    graph.errors.filter (·.code = .cycleDetected) = (Wiring.lenient graph).cycleIssues := by
  rw [graph.filter_errors (· = .cycleDetected)]
  have none : graph.edges.flatMap (graph.issuesAt (· = .cycleDetected)) = [] :=
    List.flatMap_eq_nil_iff.2 fun _ _ => rfl
  rw [none]
  rfl

theorem filter_localIssues (graph : Graph) :
    graph.errors.filter (·.code ≠ .cycleDetected) = graph.localIssues := by
  rw [graph.filter_errors (· ≠ .cycleDetected)]
  exact List.append_nil _

end Filter

theorem cycleDetected_iff :
    issue ∈ graph.errors ∧ issue.code = .cycleDetected ↔
      issue ∈ (Wiring.lenient graph).cycleIssues := by
  rw [← filter_cycleDetected, List.mem_filter, decide_eq_true_iff]

/-- Whether the types of the nodes that an edge connects are not on the allow-list, and an error at
the edge says so. -/
def Rejects (graph : Graph) (edge : Edge) : Prop :=
  ∃ source target : Node,
    graph.findNode? edge.source = some source ∧ graph.findNode? edge.target = some target ∧
    target.type ∉ source.type.targets ∧
    ∃ issue ∈ graph.validate.errors, issue.code = .invalidConnection ∧
      issue.nodeId = some edge.target ∧ issue.edgeId = some edge.id

/-- Every cycle has an edge whose connection is reported, because no rank climbs all the way
round. -/
theorem LiveCycle.exists_rejected {cycle : List Edge} (h : graph.LiveCycle cycle) :
    ∃ edge ∈ cycle, graph.Rejects edge := by
  obtain ⟨edge, hedge, rejected⟩ := h.exists_connectionIssues
  obtain ⟨he, live⟩ := h.2 edge hedge
  obtain ⟨hs, ht⟩ := isLive_iff.1 live
  obtain ⟨source, fs, _⟩ := exists_findNode? hs
  obtain ⟨target, ft, _⟩ := exists_findNode? ht
  obtain ⟨issue, hissue⟩ := List.exists_mem_of_ne_nil _ rejected
  refine ⟨edge, hedge, source, target, fs, ft, ?_, issue, ?_, of_mem_connectionIssues hissue⟩
  · exact fun allowed => rejected ((connectionIssues_eq_nil_iff fs ft).2 allowed)
  · exact mem_errors_of_mem_connectionIssues he hissue

theorem exists_liveCycle_of_hasError (h : graph.validate.hasError .cycleDetected = true) :
    ∃ cycle, graph.LiveCycle cycle := by
  obtain ⟨issue, hissue, code⟩ := List.any_eq_true.1 h
  have cyclic := cycleDetected_iff.1 ⟨hissue, of_decide_eq_true code⟩
  obtain ⟨edge, hedge, _⟩ := List.mem_map.1 cyclic
  obtain ⟨cycle, walk, within⟩ :=
    Wiring.leads_iff_exists_walk.1 (Wiring.leads_of_mem_cycleEdges hedge)
  exact ⟨cycle, ⟨_, walk⟩, fun edge he => mem_lenient_edges.1 (within he)⟩

/-- A canvas is valid exactly if it is runnable, and then it has no cycle. A cycle is reported only
if there is one, and every cycle, reported or not, has an edge that is rejected. -/
theorem validate_valid_iff (graph : Graph) :
    (graph.validate.valid = true ↔ graph.Runnable) ∧
    (graph.validate.valid = true → ∀ cycle, ¬ graph.LiveCycle cycle) ∧
    (graph.validate.hasError .cycleDetected = true → ∃ cycle, graph.LiveCycle cycle) ∧
    (∀ cycle, graph.LiveCycle cycle → ∃ edge ∈ cycle, graph.Rejects edge) := by
  refine ⟨valid_iff_runnable, ?_, exists_liveCycle_of_hasError, fun _ h => h.exists_rejected⟩
  intro valid cycle h
  obtain ⟨_, _, _, _, _, _, _, issue, hissue, _⟩ := h.exists_rejected
  change issue ∈ graph.errors at hissue
  simp [valid_iff_errors_eq_nil.1 valid] at hissue

/-- An answer fed back to the question is reported as a cycle, and one of the two edges is
rejected. -/
theorem exists_rejected_of_answer_fed_back :
    let graph : Graph :=
      ⟨[.ofId "q" .query, .ofId "a" .generate], [⟨"ask", "q", "a"⟩, ⟨"loop", "a", "q"⟩]⟩
    graph.validate.hasError .cycleDetected = true ∧ ∃ edge ∈ graph.edges, graph.Rejects edge := by
  intro graph
  have cycle : graph.LiveCycle graph.edges :=
    ⟨⟨"q", .cons ⟨"ask", "q", "a"⟩ (.single ⟨"loop", "a", "q"⟩)⟩, by decide⟩
  exact ⟨by decide, (validate_valid_iff graph).2.2.2 graph.edges cycle⟩

end Graph

end Canvas
