import Canvas.Proofs.Redrawing

/-!
# Warnings about missing ancestors

The nodes that are warned about for want of an ancestor are given by the walks along live edges, on
whatever was drawn: cycles, repeated ids and dangling edges included. Of several nodes with one id
the first counts, both as the node that expects an ancestor and as the ancestor. They are listed in
ascending order of id, each once.
-/

namespace Canvas

theorem NodeType.expectedAncestor_ne (type : NodeType) : type.expectedAncestor ≠ some type := by
  cases type <;> decide

namespace Graph

variable {graph : Graph} {node : Node} {a b : String}

/-- Tidying keeps the first node with each id. -/
theorem mem_lenient_nodes :
    node ∈ (Wiring.lenient graph).nodes ↔ graph.findNode? node.id = some node := by
  rw [← Wiring.node?_lenient, Wiring.node?_eq_some_iff]
  exact (and_iff_left rfl).symm

/-- The paths of the tidied graph are the walks along live edges. -/
theorem leads_lenient_iff :
    (Wiring.lenient graph).Leads a b ↔
      ∃ walk, Walk a walk b ∧ ∀ edge ∈ walk, edge ∈ graph.edges ∧ graph.isLive edge = true := by
  simp only [Wiring.leads_iff_exists_walk, List.subset_def, mem_lenient_edges]

/-- Whether a node expects an ancestor of a type and no walk along live edges leads there from a
node of the type. -/
def LacksAncestor (graph : Graph) (node : Node) : Prop :=
  ∃ expected, node.type.expectedAncestor = some expected ∧
    ¬ ∃ other walk, graph.findNode? other.id = some other ∧ other.type = expected ∧
      Walk other.id walk node.id ∧ ∀ edge ∈ walk, edge ∈ graph.edges ∧ graph.isLive edge = true

theorem lacksAncestor_iff (hnode : node ∈ (Wiring.lenient graph).nodes) :
    graph.LacksAncestor node ↔ ∃ expected, node.type.expectedAncestor = some expected ∧
      ∀ ancestor ∈ (Wiring.lenient graph).ancestors node.id, ancestor.type ≠ expected := by
  refine exists_congr fun expected => and_congr_right fun expects => ?_
  simp only [Wiring.mem_ancestors, leads_lenient_iff, mem_lenient_nodes]
  constructor
  · rintro none ancestor ⟨first, -, walk, hwalk, live⟩ type
    exact none ⟨ancestor, walk, first, type, hwalk, live⟩
  · rintro none ⟨other, walk, first, type, hwalk, live⟩
    -- A node is no ancestor of itself, but then its type is not the one that it expects.
    have ne : other.id ≠ node.id := by
      intro same
      rw [same, mem_lenient_nodes.1 hnode] at first
      obtain rfl := Option.some.inj first
      exact node.type.expectedAncestor_ne (type ▸ expects)
    exact none other ⟨first, ne, walk, hwalk, live⟩ type

end Graph

namespace Wiring

variable {wiring : Wiring} {node : Node}

theorem ancestorIssues_ne_nil_iff :
    wiring.ancestorIssues node ≠ [] ↔ ∃ expected, node.type.expectedAncestor = some expected ∧
      ∀ ancestor ∈ wiring.ancestors node.id, ancestor.type ≠ expected := by
  unfold ancestorIssues
  cases node.type.expectedAncestor with
  | none => simp
  | some expected => simp

/-- A node is warned about at most once. -/
theorem nodeId_ancestorIssues (wiring : Wiring) (node : Node) :
    (wiring.ancestorIssues node).map (·.nodeId) =
      if wiring.ancestorIssues node ≠ [] then [some node.id] else [] := by
  unfold ancestorIssues
  cases node.type.expectedAncestor with
  | none => rfl
  | some expected =>
      dsimp only
      split
      · rfl
      · rfl

/-- The nodes that are warned about for want of an ancestor, in ascending order of id. -/
def orphans (wiring : Wiring) : List Node :=
  wiring.nodesById.filter fun node => wiring.ancestorIssues node ≠ []

theorem nodeId_flatMap_ancestorIssues (wiring : Wiring) :
    (wiring.nodesById.flatMap wiring.ancestorIssues).map (·.nodeId) =
      wiring.orphans.map fun node => some node.id := by
  unfold orphans
  induction wiring.nodesById with
  | nil => rfl
  | cons node rest ih =>
      rw [List.flatMap_cons, List.map_append, ih, nodeId_ancestorIssues]
      by_cases warned : wiring.ancestorIssues node ≠ []
      · simp [warned]
      · simp [warned]

theorem mem_orphans : node ∈ wiring.orphans ↔
    node ∈ wiring.nodes ∧ wiring.ancestorIssues node ≠ [] := by
  rw [orphans, List.mem_filter, wiring.nodesById_perm.mem_iff, decide_eq_true_iff]

/-- Ids are distinct, so their order is strict. -/
theorem pairwise_lt_nodesById (wiring : Wiring) :
    wiring.nodesById.Pairwise fun a b => a.id < b.id := by
  have distinct : (wiring.nodesById.map (·.id)).Nodup :=
    (wiring.nodesById_perm.map _).nodup_iff.2 wiring.distinct
  refine (wiring.pairwise_nodesById.and (List.pairwise_map.1 distinct)).imp ?_
  rintro a b ⟨le, ne⟩
  exact Classical.byContradiction fun not_lt => ne (String.le_antisymm le (String.not_lt.1 not_lt))

end Wiring

namespace Graph

theorem filter_missingAncestor (graph : Graph) :
    graph.warnings.filter (·.code = .missingAncestor) =
      (Wiring.lenient graph).nodesById.flatMap (Wiring.lenient graph).ancestorIssues := by
  have entries : graph.extraEntryIssues.filter (·.code = .missingAncestor) = [] :=
    filter_of_code (fun _ h => code_of_mem_extraEntryIssues h) (· = .missingAncestor)
  have connections : ((Wiring.lenient graph).nodesById.flatMap
      (Wiring.lenient graph).connectivityIssues).filter (·.code = .missingAncestor) = [] := by
    refine List.filter_eq_nil_iff.2 fun issue h => ?_
    obtain ⟨node, -, h⟩ := List.mem_flatMap.1 h
    rcases Wiring.code_of_mem_connectivityIssues h with code | code
    · simp [code]
    · simp [code]
  have ancestors : ((Wiring.lenient graph).nodesById.flatMap
      (Wiring.lenient graph).ancestorIssues).filter (·.code = .missingAncestor) =
      (Wiring.lenient graph).nodesById.flatMap (Wiring.lenient graph).ancestorIssues := by
    refine List.filter_eq_self.2 fun issue h => ?_
    obtain ⟨node, -, h⟩ := List.mem_flatMap.1 h
    exact decide_eq_true (Wiring.of_mem_ancestorIssues h).1
  rw [warnings_eq, Wiring.nodeIssues, List.filter_append, List.filter_append, entries, connections,
    ancestors]
  rfl

/-- Whatever was drawn, the nodes that are warned about for want of an ancestor are the first nodes
with their ids that lack one, each once and in strictly ascending order of id. -/
theorem missing_ancestors_reported (graph : Graph) :
    ∃ nodes : List Node,
      (graph.validate.warnings.filter (·.code = .missingAncestor)).map (·.nodeId) =
        nodes.map (fun node => some node.id) ∧
      nodes.Pairwise (fun a b => a.id < b.id) ∧
      ∀ node, node ∈ nodes ↔ graph.findNode? node.id = some node ∧ graph.LacksAncestor node := by
  refine ⟨(Wiring.lenient graph).orphans, ?_, ?_, fun node => ?_⟩
  · change (graph.warnings.filter (·.code = .missingAncestor)).map (·.nodeId) = _
    rw [filter_missingAncestor, Wiring.nodeId_flatMap_ancestorIssues]
  · exact (Wiring.lenient graph).pairwise_lt_nodesById.sublist List.filter_sublist
  · rw [Wiring.mem_orphans, ← mem_lenient_nodes, Wiring.ancestorIssues_ne_nil_iff]
    exact and_congr_right fun hnode => (lacksAncestor_iff hnode).symm

end Graph

end Canvas
