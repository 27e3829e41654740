import Canvas.Proofs.Graph.CycleReport
import Canvas.Proofs.Graph.Reach

/-!
# Canvases drawn in another order

Two canvases with the same nodes and edges in different order are both valid or both not. If their
ids are distinct, the same errors are found, and both have a cycle or neither. Which edge of a cycle
is reported does depend on the order, and so does the order of the errors. What is found about a
node that lacks connections or ancestors stands in the order of the ids, so these warnings agree
word for word.
-/

namespace Canvas

namespace Wiring

variable {wiring other : Wiring} {node : Node} {a b : String} {issue : Issue}

theorem leads_congr (edges : wiring.edges.Perm other.edges) :
    wiring.Leads a b ↔ other.Leads a b := by
  simp only [leads_iff_exists_walk, List.subset_def, edges.mem_iff]

theorem nodesById_perm (wiring : Wiring) : wiring.nodesById.Perm wiring.nodes :=
  List.mergeSort_perm _ _

theorem pairwise_nodesById (wiring : Wiring) :
    wiring.nodesById.Pairwise fun a b => a.id ≤ b.id := by
  refine (List.pairwise_mergeSort ?_ ?_ wiring.nodes).imp of_decide_eq_true
  · intro a b c hab hbc
    exact decide_eq_true (String.le_trans (of_decide_eq_true hab) (of_decide_eq_true hbc))
  · intro a b
    simpa using String.le_total a.id b.id

/-- Nodes with distinct ids have one order by id. -/
theorem nodesById_eq (nodes : wiring.nodes.Perm other.nodes) :
    wiring.nodesById = other.nodesById := by
  have perm : wiring.nodesById.Perm other.nodes := wiring.nodesById_perm.trans nodes
  refine List.Perm.eq_of_pairwise ?_ wiring.pairwise_nodesById other.pairwise_nodesById
    (perm.trans other.nodesById_perm.symm)
  intro a b ha hb hab hba
  exact List.inj_on_of_nodup_map other.distinct (perm.mem_iff.1 ha)
    (other.nodesById_perm.mem_iff.1 hb) (String.le_antisymm hab hba)

theorem connectivityIssues_eq (edges : wiring.edges.Perm other.edges) :
    wiring.connectivityIssues = other.connectivityIssues := by
  funext node
  have incoming : (wiring.incoming node.id).isEmpty = (other.incoming node.id).isEmpty :=
    (edges.filter _).isEmpty_eq
  have outgoing : (wiring.outgoing node.id).isEmpty = (other.outgoing node.id).isEmpty :=
    (edges.filter _).isEmpty_eq
  rw [connectivityIssues, connectivityIssues, incoming, outgoing]

theorem ancestorIssues_eq (nodes : wiring.nodes.Perm other.nodes)
    (edges : wiring.edges.Perm other.edges) : wiring.ancestorIssues = other.ancestorIssues := by
  funext node
  have found : ∀ expected : NodeType, (wiring.ancestors node.id).any (·.type = expected) =
      (other.ancestors node.id).any (·.type = expected) := by
    intro expected
    rw [Bool.eq_iff_iff, List.any_eq_true, List.any_eq_true]
    simp only [mem_ancestors, nodes.mem_iff, leads_congr edges]
  simp only [ancestorIssues, found]

/-- What is found about nodes that lack connections or ancestors. -/
def nodeIssues (wiring : Wiring) : List Issue :=
  wiring.nodesById.flatMap wiring.connectivityIssues
    ++ wiring.nodesById.flatMap wiring.ancestorIssues

theorem nodeIssues_eq (nodes : wiring.nodes.Perm other.nodes)
    (edges : wiring.edges.Perm other.edges) : wiring.nodeIssues = other.nodeIssues := by
  rw [nodeIssues, nodeIssues, nodesById_eq nodes, connectivityIssues_eq edges,
    ancestorIssues_eq nodes edges]

theorem code_of_mem_connectivityIssues (h : issue ∈ wiring.connectivityIssues node) :
    issue.code = .noIncomingEdges ∨ issue.code = .noOutgoingEdges := by
  rcases List.mem_append.1 h with h | h
  · obtain ⟨-, h⟩ := List.mem_ite_nil_right.1 h
    exact .inl (congrArg Issue.code (List.mem_singleton.1 h))
  · obtain ⟨-, h⟩ := List.mem_ite_nil_right.1 h
    exact .inr (congrArg Issue.code (List.mem_singleton.1 h))

/-- An issue about ancestors says at its node that none has the type that is expected there. -/
theorem of_mem_ancestorIssues (h : issue ∈ wiring.ancestorIssues node) :
    issue.code = .missingAncestor ∧ issue.nodeId = some node.id ∧
      ∃ expected, node.type.expectedAncestor = some expected ∧
        ∀ ancestor ∈ wiring.ancestors node.id, ancestor.type ≠ expected := by
  unfold ancestorIssues at h
  split at h
  · contradiction
  · rename_i expected expects
    obtain ⟨missing, h⟩ := List.mem_ite_nil_left.1 h
    obtain rfl := List.mem_singleton.1 h
    exact ⟨rfl, rfl, expected, expects, by simpa using missing⟩

theorem code_of_mem_nodeIssues (h : issue ∈ wiring.nodeIssues) :
    issue.code ∈ [IssueCode.noIncomingEdges, .noOutgoingEdges, .missingAncestor] := by
  rcases List.mem_append.1 h with h | h
  · obtain ⟨node, -, h⟩ := List.mem_flatMap.1 h
    rcases code_of_mem_connectivityIssues h with code | code
    · simp [code]
    · simp [code]
  · obtain ⟨node, -, h⟩ := List.mem_flatMap.1 h
    simp [(of_mem_ancestorIssues h).1]

end Wiring

/-- Whether findings say the same about a canvas, up to the order of the errors, the edges that are
blamed for a cycle, and the choice among several entry nodes. -/
structure Findings.Agree (findings other : Findings) : Prop where
  errors : (findings.errors.filter (·.code ≠ .cycleDetected)).Perm
    (other.errors.filter (·.code ≠ .cycleDetected))
  cycles : findings.hasError .cycleDetected = other.hasError .cycleDetected
  warnings :
    findings.warnings.filter
        (·.code ∈ [.noIncomingEdges, .noOutgoingEdges, .missingAncestor]) =
      other.warnings.filter (·.code ∈ [.noIncomingEdges, .noOutgoingEdges, .missingAncestor])

namespace Graph

variable {graph other : Graph} {edge : Edge} {cycle : List Edge} {issue : Issue} {id : String}

theorem warnings_eq (graph : Graph) :
    graph.warnings = graph.extraEntryIssues ++ (Wiring.lenient graph).nodeIssues :=
  List.append_assoc _ _ _

theorem code_of_mem_extraEntryIssues (h : issue ∈ graph.extraEntryIssues) :
    issue.code = .multipleEntryNodes := by
  unfold extraEntryIssues at h
  split at h
  · contradiction
  · obtain ⟨extra, -, rfl⟩ := List.mem_map.1 h
    rfl

/-- The warnings about single nodes are those of the tidied graph. -/
theorem filter_nodeIssues (graph : Graph) :
    graph.warnings.filter (·.code ∈ [.noIncomingEdges, .noOutgoingEdges, .missingAncestor]) =
      (Wiring.lenient graph).nodeIssues := by
  have none : graph.extraEntryIssues.filter
      (·.code ∈ [.noIncomingEdges, .noOutgoingEdges, .missingAncestor]) = [] :=
    filter_of_code (fun _ h => code_of_mem_extraEntryIssues h)
      (· ∈ [.noIncomingEdges, .noOutgoingEdges, .missingAncestor])
  have all : (Wiring.lenient graph).nodeIssues.filter
      (·.code ∈ [.noIncomingEdges, .noOutgoingEdges, .missingAncestor]) =
      (Wiring.lenient graph).nodeIssues :=
    List.filter_eq_self.2 fun issue h => decide_eq_true (Wiring.code_of_mem_nodeIssues h)
  rw [warnings_eq, List.filter_append, none, all, List.nil_append]

/-- Whether two canvases have the same nodes and edges, each drawn in some order. -/
structure Redraws (graph other : Graph) : Prop where
  nodes : graph.nodes.Perm other.nodes
  edges : graph.edges.Perm other.edges

namespace Redraws

theorem symm (h : graph.Redraws other) : other.Redraws graph := ⟨h.nodes.symm, h.edges.symm⟩

theorem ids (h : graph.Redraws other) : graph.ids.Perm other.ids := h.nodes.map _

theorem isLive (h : graph.Redraws other) : graph.isLive = other.isLive := by
  funext edge
  simp only [Graph.isLive, List.contains_eq_mem, h.ids.mem_iff]

theorem runnable (h : graph.Redraws other) (runnable : graph.Runnable) : other.Runnable := by
  obtain ⟨distinct, entry, terminal, live, allowed⟩ := runnable
  simp only [h.nodes.mem_iff, h.edges.mem_iff, h.ids.mem_iff] at entry terminal live allowed
  exact ⟨h.ids.nodup_iff.1 distinct, entry, terminal, live, allowed⟩

theorem liveCycle (h : graph.Redraws other) (cyclic : graph.LiveCycle cycle) :
    other.LiveCycle cycle := by
  obtain ⟨walk, live⟩ := cyclic
  rw [h.isLive] at live
  exact ⟨walk, fun edge he => ⟨h.edges.mem_iff.1 (live edge he).1, (live edge he).2⟩⟩

theorem findNode? (h : graph.Redraws other) (distinct : graph.ids.Nodup) :
    graph.findNode? = other.findNode? := by
  funext id
  ext node
  change graph.nodes.find? (·.id = id) = some node ↔ other.nodes.find? (·.id = id) = some node
  rw [Node.find?_eq_some_iff distinct, Node.find?_eq_some_iff (h.ids.nodup_iff.1 distinct),
    h.nodes.mem_iff]

theorem localIssues (h : graph.Redraws other) (distinct : graph.ids.Nodup) :
    graph.localIssues.Perm other.localIssues := by
  have unrepeated : ∀ graph : Graph, graph.ids.Nodup → duplicateIssues [] graph.nodes = [] :=
    fun graph distinct => duplicateIssues_eq_nil_iff.2 ⟨distinct, by simp⟩
  have entry : graph.missingEntryIssues = other.missingEntryIssues := by
    have none : graph.entries.isEmpty = other.entries.isEmpty := (h.nodes.filter _).isEmpty_eq
    rw [missingEntryIssues, missingEntryIssues, none]
  have terminal : graph.missingTerminalIssues = other.missingTerminalIssues := by
    rw [missingTerminalIssues, missingTerminalIssues, h.nodes.any_eq]
  have edges : graph.edgeIssues.Perm other.edgeIssues := by
    refine h.edges.flatMap fun edge _ => List.Perm.of_eq ?_
    simp only [sourceIssues, targetIssues, connectionIssues, h.findNode? distinct,
      List.contains_eq_mem, h.ids.mem_iff]
  rw [Graph.localIssues, Graph.localIssues, unrepeated graph distinct,
    unrepeated other (h.ids.nodup_iff.1 distinct), entry, terminal]
  exact edges.append_left _

theorem nodeIssues (h : graph.Redraws other) (distinct : graph.ids.Nodup) :
    (Wiring.lenient graph).nodeIssues = (Wiring.lenient other).nodeIssues := by
  apply Wiring.nodeIssues_eq
  · rw [Wiring.nodes_lenient, Wiring.nodes_lenient, firsts_eq_self distinct,
      firsts_eq_self (h.ids.nodup_iff.1 distinct)]
    exact h.nodes
  · rw [Wiring.edges_lenient, Wiring.edges_lenient, h.isLive]
    exact h.edges.filter _

/-- Whether a canvas is valid does not depend on the order in which it was drawn, and neither do
the findings if its ids are distinct. -/
theorem validate_agree (h : graph.Redraws other) :
    graph.validate.valid = other.validate.valid ∧
    (graph.ids.Nodup → graph.validate.Agree other.validate) := by
  constructor
  · rw [Bool.eq_iff_iff, valid_iff_runnable, valid_iff_runnable]
    exact ⟨h.runnable, h.symm.runnable⟩
  · intro distinct
    refine ⟨?_, ?_, ?_⟩
    · change (graph.errors.filter _).Perm (other.errors.filter _)
      rw [filter_localIssues, filter_localIssues]
      exact h.localIssues distinct
    · rw [Bool.eq_iff_iff, hasError_cycleDetected_iff, hasError_cycleDetected_iff]
      exact ⟨fun ⟨cycle, cyclic⟩ => ⟨cycle, h.liveCycle cyclic⟩,
        fun ⟨cycle, cyclic⟩ => ⟨cycle, h.symm.liveCycle cyclic⟩⟩
    · change graph.warnings.filter _ = other.warnings.filter _
      rw [filter_nodeIssues, filter_nodeIssues]
      exact h.nodeIssues distinct

/-- Drawn backwards, two agents that feed each other are found out at the other of their edges.
All else is found as before. -/
theorem agree_drawn_backwards :
    let graph : Graph :=
      ⟨[.ofId "question" .query, .ofId "first" .agent, .ofId "second" .agent, .ofId "rank" .rerank],
        [⟨"e1", "question", "first"⟩, ⟨"e2", "first", "second"⟩, ⟨"e3", "second", "first"⟩]⟩
    let other : Graph := ⟨graph.nodes.reverse, graph.edges.reverse⟩
    (graph.Redraws other ∧ graph.ids.Nodup) ∧
      (graph.validate.valid = other.validate.valid ∧ graph.validate.Agree other.validate) ∧
      graph.validate.errors.filter (·.code = .cycleDetected) ≠
        other.validate.errors.filter (·.code = .cycleDetected) := by
  intro graph other
  have h : graph.Redraws other := ⟨(List.reverse_perm _).symm, (List.reverse_perm _).symm⟩
  have distinct : graph.ids.Nodup := by decide
  exact ⟨⟨h, distinct⟩, ⟨h.validate_agree.1, h.validate_agree.2 distinct⟩, by decide +kernel⟩

end Redraws

end Graph

end Canvas
