import Canvas.Proofs.Validation

/-!
# Dangling edges

An edge with an end that is no node is reported at its unknown ends, and that is all it does. No
other finding changes if such edges are left out before the canvas is validated: not what is found
about connections, cycles, missing edges or ancestors, and not the order of the findings.
-/

namespace Canvas

namespace Edge

/-- The finding that the source of an edge is unknown. -/
def unknownSource (edge : Edge) : Issue :=
  .atEdge .invalidSource
    ("Edge '" ++ edge.id ++ "' starts at unknown node '" ++ edge.source ++ "'") edge.id

/-- The finding that the target of an edge is unknown. -/
def unknownTarget (edge : Edge) : Issue :=
  .atEdge .invalidTarget
    ("Edge '" ++ edge.id ++ "' ends at unknown node '" ++ edge.target ++ "'") edge.id

end Edge

namespace Graph

variable {graph : Graph} {edge : Edge}

/-- The same nodes with the edges whose ends are both known. -/
def live (graph : Graph) : Graph := ⟨graph.nodes, graph.edges.filter graph.isLive⟩

/-- Tidying a graph leaves nothing of its dangling edges. -/
theorem lenient_live (graph : Graph) : Wiring.lenient graph.live = Wiring.lenient graph := by
  have edges : (graph.edges.filter graph.isLive).filter graph.isLive =
      graph.edges.filter graph.isLive := by
    rw [List.filter_filter]
    simp only [Bool.and_self]
  refine Wiring.ext ?_ ?_
  · rw [Wiring.nodes_lenient, Wiring.nodes_lenient]
    rfl
  · rw [Wiring.edges_lenient, Wiring.edges_lenient]
    exact edges

theorem warnings_live (graph : Graph) : graph.live.warnings = graph.warnings := by
  rw [warnings, warnings, lenient_live]
  rfl

theorem sourceIssues_eq (graph : Graph) (edge : Edge) :
    graph.sourceIssues edge = if edge.source ∈ graph.ids then [] else [edge.unknownSource] := by
  simp only [sourceIssues, List.contains_eq_mem, decide_eq_true_eq]
  rfl

theorem targetIssues_eq (graph : Graph) (edge : Edge) :
    graph.targetIssues edge = if edge.target ∈ graph.ids then [] else [edge.unknownTarget] := by
  simp only [targetIssues, List.contains_eq_mem, decide_eq_true_eq]
  rfl

theorem endIssues_of_live (h : graph.isLive edge = true) :
    graph.sourceIssues edge = [] ∧ graph.targetIssues edge = [] := by
  obtain ⟨source, target⟩ := isLive_iff.1 h
  exact ⟨sourceIssues_eq_nil_iff.2 source, targetIssues_eq_nil_iff.2 target⟩

/-- Each unknown end of a dangling edge is reported, and no end of a live edge. -/
theorem endIssues_eq (graph : Graph) (edge : Edge) :
    graph.sourceIssues edge ++ graph.targetIssues edge =
      if !graph.isLive edge then
        (if edge.source ∈ graph.ids then [] else [edge.unknownSource]) ++
        (if edge.target ∈ graph.ids then [] else [edge.unknownTarget])
      else [] := by
  cases h : graph.isLive edge with
  | false =>
      rw [sourceIssues_eq, targetIssues_eq]
      rfl
  | true =>
      obtain ⟨source, target⟩ := endIssues_of_live h
      rw [source, target]
      rfl

theorem mem_ids_of_findNode? {id : String} {node : Node} (found : graph.findNode? id = some node) :
    id ∈ graph.ids :=
  List.mem_map.2 ⟨node, List.mem_of_find?_eq_some found, by simpa using List.find?_some found⟩

/-- A dangling edge connects no two nodes of whatever types. -/
theorem connectionIssues_of_dangling (h : graph.isLive edge = false) :
    graph.connectionIssues edge = [] := by
  unfold connectionIssues
  split
  · rename_i source target fs ft
    have live := isLive_iff.2 ⟨mem_ids_of_findNode? fs, mem_ids_of_findNode? ft⟩
    rw [h] at live
    contradiction
  · rfl

theorem flatMap_filter {α β : Type} (items : List α) (p : α → Bool) (f : α → List β) :
    (items.filter p).flatMap f = items.flatMap fun item => if p item then f item else [] := by
  induction items with
  | nil => rfl
  | cons first rest ih =>
      by_cases h : p first <;> simp [h, ih]

/-- Among live edges only the connections can be wrong. -/
theorem edgeIssues_live (graph : Graph) :
    graph.live.edgeIssues = graph.edges.flatMap graph.connectionIssues := by
  change (graph.edges.filter graph.isLive).flatMap (fun edge =>
    graph.sourceIssues edge ++ graph.targetIssues edge ++ graph.connectionIssues edge) = _
  rw [flatMap_filter]
  refine List.flatMap_congr fun edge _ => ?_
  cases h : graph.isLive edge with
  | false => exact (connectionIssues_of_dangling h).symm
  | true =>
      obtain ⟨source, target⟩ := endIssues_of_live h
      rw [source, target]
      rfl

/-- Leaving out the dangling edges of a canvas changes no warning and no error but those at their
unknown ends. Of these there is one for each unknown end of each dangling edge, edge by edge. -/
theorem dangling_edges_inert (graph : Graph) :
    graph.validate.warnings = graph.live.validate.warnings ∧
    graph.validate.errors.filter (·.code ∉ [.invalidSource, .invalidTarget]) =
      graph.live.validate.errors ∧
    graph.validate.errors.filter (·.code ∈ [.invalidSource, .invalidTarget]) =
      (graph.edges.filter (!graph.isLive ·)).flatMap fun edge =>
        (if edge.source ∈ graph.ids then [] else [edge.unknownSource]) ++
        (if edge.target ∈ graph.ids then [] else [edge.unknownTarget]) := by
  refine ⟨(warnings_live graph).symm, ?_, ?_⟩
  · change graph.errors.filter _ = graph.live.errors
    rw [graph.filter_errors (· ∉ [.invalidSource, .invalidTarget]), errors, edgeIssues_live,
      lenient_live]
    rfl
  · change graph.errors.filter _ = _
    rw [graph.filter_errors (· ∈ [.invalidSource, .invalidTarget]), flatMap_filter]
    refine (List.append_nil _).trans (List.flatMap_congr fun edge _ => ?_)
    exact (List.append_nil _).trans (graph.endIssues_eq edge)

end Graph

end Canvas
