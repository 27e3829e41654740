import Canvas.Proofs.Graph.FinishOrder
import Canvas.Proofs.Graph.Unplaced

/-!
# Reports of cycles

The search for back edges and the placement of nodes agree on which graphs have a cycle. Each back
edge that is reported lies on a cycle, and each cycle contains a back edge, for along all other
edges nodes stand in the reverse of the order in which the search left them. Of back edges with one
id only the first is reported; the id stands for all edges that have it, so the report still covers
every cycle.
-/

namespace Canvas

namespace Wiring

variable {wiring : Wiring} {edge : Edge} {edges cycle : List Edge} {a : String}

/-- The search that finds the back edges. -/
def search (wiring : Wiring) : DepthFirst :=
  .visitAll wiring.successors wiring.ids.length wiring.ids

theorem backEdges_search (wiring : Wiring) : wiring.search.backEdges = wiring.backEdges := by
  rw [search, backEdges, ids, List.length_map]

theorem orderly_search (wiring : Wiring) :
    wiring.search.Orderly wiring.successors wiring.ids ∧ wiring.ids ⊆ wiring.search.left := by
  refine DepthFirst.orderly_visitAll fun id _ other ho => ?_
  obtain ⟨edge, he, -, rfl⟩ := mem_successors.1 ho
  exact target_mem_ids he

/-- The end of an edge that is no back edge was left before its start. -/
theorem leftBefore_of_not_backEdge (he : edge ∈ wiring.edges)
    (forward : (edge.source, edge.target) ∉ wiring.backEdges) :
    wiring.search.LeftBefore edge.target edge.source := by
  obtain ⟨orderly, left⟩ := wiring.orderly_search
  have settled := orderly.settled edge.source (left (source_mem_ids he)) edge.target
    (mem_successors.2 ⟨edge, he, rfl, rfl⟩)
  rw [backEdges_search] at settled
  exact settled.resolve_left forward

/-- Every cycle contains a back edge. -/
theorem exists_backEdge (h : Walk a cycle a) (within : cycle ⊆ wiring.edges) :
    ∃ edge ∈ cycle, (edge.source, edge.target) ∈ wiring.backEdges := by
  by_contra forward
  push Not at forward
  have once := wiring.orderly_search.1.left_once
  exact Nat.lt_irrefl _ <| h.rank_lt wiring.search.left.idxOf fun edge he =>
    (leftBefore_of_not_backEdge (within he) (forward edge he)).idxOf_lt once

theorem nodup_distinctEdges (edges : List Edge) : ((distinctEdges edges).map (·.id)).Nodup := by
  induction edges with
  | nil => exact .nil
  | cons first rest ih =>
      rw [distinctEdges, List.map_cons, List.nodup_cons]
      refine ⟨fun repeated => ?_, ih.sublist (List.filter_sublist.map _)⟩
      obtain ⟨other, ho, same⟩ := List.mem_map.1 repeated
      exact absurd same (by simpa using (List.mem_filter.1 ho).2)

theorem exists_mem_distinctEdges (h : edge ∈ edges) :
    ∃ kept ∈ distinctEdges edges, kept.id = edge.id := by
  induction edges with
  | nil => exact absurd h List.not_mem_nil
  | cons first rest ih =>
      by_cases same : edge.id = first.id
      · exact ⟨first, List.mem_cons_self, same.symm⟩
      · have later : edge ∈ rest := (List.mem_cons.1 h).resolve_left fun heq => same (heq ▸ rfl)
        obtain ⟨kept, hkept, hid⟩ := ih later
        refine ⟨kept, List.mem_cons_of_mem _ (List.mem_filter.2 ⟨hkept, ?_⟩), hid⟩
        simpa [hid] using same

theorem exists_latestEdge? (he : edge ∈ wiring.edges) :
    ∃ latest, wiring.latestEdge? edge.source edge.target = some latest := by
  rw [← Option.isSome_iff_exists, latestEdge?, List.find?_isSome]
  exact ⟨edge, List.mem_reverse.2 he, by simp⟩

/-- The id of an edge between the nodes of each back edge is reported. -/
theorem exists_mem_cycleEdges (he : edge ∈ wiring.edges)
    (back : (edge.source, edge.target) ∈ wiring.backEdges) :
    ∃ latest ∈ wiring.edges, latest.source = edge.source ∧ latest.target = edge.target ∧
      ∃ reported ∈ wiring.cycleEdges, reported.id = latest.id := by
  obtain ⟨latest, found⟩ := exists_latestEdge? he
  obtain ⟨hlatest, source, target⟩ := mem_of_latestEdge? found
  exact ⟨latest, hlatest, source, target,
    exists_mem_distinctEdges (List.mem_filterMap.2 ⟨_, back, found⟩)⟩

end Wiring

namespace Graph

variable {graph : Graph} {cycle : List Edge} {edge : Edge} {issue : Issue} {id : String}

theorem acyclic_lenient_iff : (Wiring.lenient graph).Acyclic ↔ ∀ cycle, ¬ graph.LiveCycle cycle := by
  constructor
  · rintro acyclic cycle ⟨⟨id, walk⟩, live⟩
    refine acyclic id (Wiring.leads_iff_exists_walk.2 ⟨cycle, walk, fun edge he => ?_⟩)
    exact mem_lenient_edges.2 (live edge he)
  · intro none id cyclic
    obtain ⟨cycle, walk, within⟩ := Wiring.leads_iff_exists_walk.1 cyclic
    exact none cycle ⟨⟨id, walk⟩, fun edge he => mem_lenient_edges.1 (within he)⟩

theorem LiveCycle.exists_backEdge (h : graph.LiveCycle cycle) :
    ∃ edge ∈ cycle, edge ∈ (Wiring.lenient graph).edges ∧
      (edge.source, edge.target) ∈ (Wiring.lenient graph).backEdges := by
  obtain ⟨⟨id, walk⟩, live⟩ := h
  have within : cycle ⊆ (Wiring.lenient graph).edges :=
    fun edge he => mem_lenient_edges.2 (live edge he)
  obtain ⟨edge, hedge, back⟩ := Wiring.exists_backEdge walk within
  exact ⟨edge, hedge, within hedge, back⟩

/-- A cycle is reported exactly if there is one. -/
theorem hasError_cycleDetected_iff :
    graph.validate.hasError .cycleDetected = true ↔ ∃ cycle, graph.LiveCycle cycle := by
  refine ⟨exists_liveCycle_of_hasError, ?_⟩
  rintro ⟨cycle, h⟩
  obtain ⟨edge, -, he, back⟩ := h.exists_backEdge
  obtain ⟨-, -, -, -, reported, hreported, -⟩ := Wiring.exists_mem_cycleEdges he back
  obtain ⟨listed, code⟩ := cycleDetected_iff.2 (List.mem_map_of_mem hreported)
  exact List.any_eq_true.2 ⟨_, listed, decide_eq_true code⟩

theorem exists_liveCycle_of_mem_cycleEdges (h : edge ∈ (Wiring.lenient graph).cycleEdges) :
    ∃ cycle, graph.LiveCycle cycle ∧ edge ∈ cycle := by
  obtain ⟨he, closes⟩ := Wiring.closes_of_mem_cycleEdges h
  have live := mem_lenient_edges.1 he
  rcases closes with loop | back
  · have walk : Walk edge.source [edge] edge.target := .single edge
    rw [loop] at walk
    exact ⟨[edge], ⟨⟨_, walk⟩, List.forall_mem_singleton.2 live⟩, List.mem_cons_self⟩
  · obtain ⟨walk, hwalk, within⟩ := Wiring.leads_iff_exists_walk.1 back
    refine ⟨edge :: walk, ⟨⟨_, .cons edge hwalk⟩, ?_⟩, List.mem_cons_self⟩
    exact List.forall_mem_cons.2 ⟨live, fun other ho => mem_lenient_edges.1 (within ho)⟩

/-- Whether an error about a cycle names an edge by this id. -/
def namesInCycle (graph : Graph) (id : String) : Bool :=
  graph.validate.errors.any fun issue => issue.code = .cycleDetected && issue.edgeId = some id

theorem namesInCycle_of_mem_cycleEdges (h : edge ∈ (Wiring.lenient graph).cycleEdges) :
    graph.namesInCycle edge.id = true := by
  obtain ⟨listed, code⟩ := cycleDetected_iff.2 (List.mem_map_of_mem h)
  refine List.any_eq_true.2 ⟨_, listed, ?_⟩
  rw [Bool.and_eq_true, decide_eq_true_iff]
  exact ⟨code, decide_eq_true rfl⟩

/-- Whether an edge has the same ends as a live edge whose id an error about a cycle names. -/
def isBlamed (graph : Graph) (edge : Edge) : Bool :=
  graph.edges.any fun named =>
    graph.isLive named && graph.namesInCycle named.id && named.source = edge.source
      && named.target = edge.target

/-- The graph that is left if all blamed edges are deleted. -/
def withoutBlamed (graph : Graph) : Graph :=
  { graph with edges := graph.edges.filter fun edge => !graph.isBlamed edge }

/-- Every cycle contains an edge that is blamed. -/
theorem LiveCycle.exists_isBlamed (h : graph.LiveCycle cycle) :
    ∃ edge ∈ cycle, graph.isBlamed edge = true := by
  obtain ⟨edge, hedge, he, back⟩ := h.exists_backEdge
  obtain ⟨latest, hlatest, source, target, reported, hreported, sameId⟩ :=
    Wiring.exists_mem_cycleEdges he back
  obtain ⟨listed, live⟩ := mem_lenient_edges.1 hlatest
  refine ⟨edge, hedge, List.any_eq_true.2 ⟨latest, listed, ?_⟩⟩
  have named : graph.namesInCycle latest.id = true :=
    sameId ▸ namesInCycle_of_mem_cycleEdges hreported
  simp [live, named, source, target]

/-- A cycle is reported exactly if there is one, which is when the tidied graph has no order. What
is reported lies on a cycle, no id is reported twice, and no cycle is left if the blamed edges are
deleted. -/
theorem cycles_reported (graph : Graph) :
    (graph.validate.hasError .cycleDetected = true ↔ ∃ cycle, graph.LiveCycle cycle) ∧
    (graph.validate.hasError .cycleDetected = true ↔
      ∃ ordered total, (Wiring.lenient graph).order = .error (.cycleDetected ordered total)) ∧
    (∀ issue ∈ graph.validate.errors, issue.code = .cycleDetected →
      ∃ edge cycle, graph.LiveCycle cycle ∧ edge ∈ cycle ∧
        issue.edgeId = some edge.id ∧ issue.nodeId = some edge.target) ∧
    ((graph.validate.errors.filter (·.code = .cycleDetected)).map (·.edgeId)).Nodup ∧
    ∀ cycle, ¬ graph.withoutBlamed.LiveCycle cycle := by
  refine ⟨hasError_cycleDetected_iff, ?_, ?_, ?_, ?_⟩
  · rw [hasError_cycleDetected_iff, Wiring.order_eq_cycleDetected_iff, acyclic_lenient_iff]
    push Not
    rfl
  · intro issue hissue code
    obtain ⟨edge, hedge, rfl⟩ := List.mem_map.1 (cycleDetected_iff.1 ⟨hissue, code⟩)
    obtain ⟨cycle, live, within⟩ := exists_liveCycle_of_mem_cycleEdges hedge
    exact ⟨edge, cycle, live, within, rfl, rfl⟩
  · change ((graph.errors.filter (·.code = .cycleDetected)).map (·.edgeId)).Nodup
    have ids : (Wiring.lenient graph).cycleIssues.map (·.edgeId) =
        ((Wiring.lenient graph).cycleEdges.map (·.id)).map some := by
      simp only [Wiring.cycleIssues, List.map_map, Function.comp_def]
    rw [filter_cycleDetected, ids]
    exact (Wiring.nodup_distinctEdges _).map (Option.some_injective _)
  · rintro cycle ⟨walk, live⟩
    have kept : ∀ edge ∈ cycle, edge ∈ graph.edges ∧ graph.isBlamed edge = false :=
      fun edge he => by simpa [withoutBlamed] using (live edge he).1
    have before : graph.LiveCycle cycle :=
      ⟨walk, fun edge he => ⟨(kept edge he).1, (live edge he).2⟩⟩
    obtain ⟨edge, hedge, blamed⟩ := before.exists_isBlamed
    rw [(kept edge hedge).2] at blamed
    contradiction

/-- Of two loops with one id only the first is reported, but both are blamed. -/
example :
    let graph : Graph := ⟨[.ofId "first" .agent, .ofId "second" .agent],
      [⟨"loop", "first", "first"⟩, ⟨"loop", "second", "second"⟩]⟩
    (graph.validate.errors.filter (·.code = .cycleDetected)).map (·.nodeId) = [some "first"] ∧
      graph.withoutBlamed.edges = [] := by
  decide +kernel

end Graph

end Canvas
