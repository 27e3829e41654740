import Canvas.Graph.Wiring
import Mathlib.Data.List.Nodup

/-!
# Strict and lenient builds

A strict build that succeeds has added everything, so it gives the graph as it was drawn. A lenient
build passes over nodes and edges, and what it adds is what a strict build adds of the tidied graph,
in which the first node of each id and the edges between nodes are left. So nothing depends on how
repeated ids and dangling edges are mixed, and both builds agree wherever the strict one succeeds.

Each loop of the build has two lemmas for this: when its strict mode succeeds and with what, and
which items its lenient mode passes over.
-/

namespace Canvas

namespace Graph

variable {graph : Graph} {edge : Edge} {nodes rest : List Node} {node : Node} {ids : List String}
variable {id : String}

/-- Whether both ends of an edge are nodes of the graph. -/
def isLive (graph : Graph) (edge : Edge) : Bool :=
  graph.ids.contains edge.source && graph.ids.contains edge.target

/-- The first node of each id. -/
def firsts : List Node → List Node
  | [] => []
  | node :: rest => node :: (firsts rest).filter fun other => other.id ≠ node.id

/-- The graph without repeated ids and without dangling edges. -/
def tidied (graph : Graph) : Graph := ⟨firsts graph.nodes, graph.edges.filter graph.isLive⟩

theorem isLive_iff :
    graph.isLive edge = true ↔ edge.source ∈ graph.ids ∧ edge.target ∈ graph.ids := by
  simp [isLive]

/-- An id names the same node before and after. -/
theorem find?_firsts (nodes : List Node) (id : String) :
    (firsts nodes).find? (·.id = id) = nodes.find? (·.id = id) := by
  induction nodes with
  | nil => rfl
  | cons head rest ih =>
      by_cases same : head.id = id
      · simp [firsts, same]
      · rw [firsts, List.find?_cons_of_neg (by simpa using same),
          List.find?_cons_of_neg (by simpa using same), List.find?_filter, ← ih]
        congr 1
        funext other
        by_cases named : other.id = id
        · simp [named, Ne.symm same]
        · simp [named]

theorem mem_ids_firsts : id ∈ (firsts nodes).map (·.id) ↔ id ∈ nodes.map (·.id) := by
  have named (nodes : List Node) :
      id ∈ nodes.map (·.id) ↔ (nodes.find? (·.id = id)).isSome = true := by
    simp [List.find?_isSome]
  rw [named, named, find?_firsts]

theorem firsts_eq_self (distinct : (nodes.map (·.id)).Nodup) : firsts nodes = nodes := by
  induction nodes with
  | nil => rfl
  | cons first rest ih =>
      obtain ⟨fresh, distinct⟩ := List.nodup_cons.1 distinct
      rw [firsts, ih distinct, List.filter_eq_self.2]
      intro node hnode
      exact decide_eq_true fun same => fresh (List.mem_map.2 ⟨node, hnode, same⟩)

/-- The first nodes of new ids, if the id of the head is not new. -/
theorem filter_firsts_of_known (known : node.id ∈ ids) :
    (firsts (node :: rest)).filter (·.id ∉ ids) = (firsts rest).filter (·.id ∉ ids) := by
  rw [firsts, List.filter_cons_of_neg (by simpa using known), List.filter_filter]
  refine List.filter_congr fun other _ => ?_
  by_cases same : other.id = node.id
  · simp [same, known]
  · simp [same]

/-- The first nodes of new ids, if the id of the head is new. -/
theorem filter_firsts_of_fresh (fresh : node.id ∉ ids) :
    (firsts (node :: rest)).filter (·.id ∉ ids) =
      node :: (firsts rest).filter (·.id ∉ ids ++ [node.id]) := by
  rw [firsts, List.filter_cons_of_pos (by simpa using fresh), List.filter_filter]
  refine congrArg _ (List.filter_congr fun other _ => ?_)
  simp [not_or]

end Graph

namespace Wiring

open Canvas.Graph (firsts)

variable {wiring built : Wiring} {graph : Graph} {nodes : List Node} {edges : List Edge}
variable {strictly : Bool}

theorem ids_addNode {node : Node} (fresh : node.id ∉ wiring.ids) :
    (wiring.addNode node fresh).ids = wiring.ids ++ [node.id] :=
  List.map_append

/-- Adding nodes strictly succeeds if it gives a wiring. -/
theorem addNodes_true_iff :
    wiring.addNodes true nodes = .ok built ↔
      built.nodes = wiring.nodes ++ nodes ∧ built.edges = wiring.edges := by
  induction nodes generalizing wiring with
  | nil => simp [addNodes, Wiring.ext_iff, eq_comm]
  | cons node rest ih =>
      by_cases known : node.id ∈ wiring.ids
      · -- The id would stand in the wiring twice.
        refine iff_of_false (by simp [addNodes, known]) ?_
        rintro ⟨nodes, -⟩
        have distinct := built.distinct
        rw [nodes, List.map_append, List.nodup_append] at distinct
        exact distinct.2.2 _ known _ (by simp) rfl
      · rw [addNodes, dif_neg known, ih]
        simp [addNode]

/-- Adding edges strictly succeeds if it gives a wiring. -/
theorem addEdges_true_iff :
    wiring.addEdges true edges = .ok built ↔
      built.nodes = wiring.nodes ∧ built.edges = wiring.edges ++ edges := by
  induction edges generalizing wiring with
  | nil => simp [addEdges, Wiring.ext_iff, eq_comm]
  | cons edge rest ih =>
      by_cases ends : edge.source ∈ wiring.ids ∧ edge.target ∈ wiring.ids
      · rw [addEdges, dif_pos ends, ih]
        simp [addEdge]
      · refine iff_of_false ?_ ?_
        · rw [addEdges, dif_neg ends, if_neg (by simp)]
          -- Whichever end is unknown, it is a fault.
          split <;> simp
        · rintro ⟨nodes, edges⟩
          have live := built.live edge (by simp [edges])
          rw [nodes] at live
          exact ends live

/-- A lenient build passes over the nodes whose id is there already or comes earlier. -/
theorem addNodes_false :
    wiring.addNodes false nodes =
      wiring.addNodes true ((firsts nodes).filter (·.id ∉ wiring.ids)) := by
  induction nodes generalizing wiring with
  | nil => rfl
  | cons node rest ih =>
      by_cases known : node.id ∈ wiring.ids
      · rw [Graph.filter_firsts_of_known known, ← ih]
        simp [addNodes, known]
      · -- From here on the id is there, so later nodes with it are passed over.
        rw [Graph.filter_firsts_of_fresh known, addNodes, addNodes, dif_neg known, dif_neg known,
          ih, ids_addNode]

/-- A lenient build passes over the edges with an unknown end. -/
theorem addEdges_false :
    wiring.addEdges false edges =
      wiring.addEdges true
        (edges.filter fun edge => edge.source ∈ wiring.ids ∧ edge.target ∈ wiring.ids) := by
  induction edges generalizing wiring with
  | nil => rfl
  | cons edge rest ih =>
      by_cases ends : edge.source ∈ wiring.ids ∧ edge.target ∈ wiring.ids
      · rw [List.filter_cons_of_pos (by simpa using ends), addEdges, addEdges, dif_pos ends,
          dif_pos ends]
        exact ih
      · rw [List.filter_cons_of_neg (by simpa using ends), ← ih, addEdges, dif_neg ends]
        rfl

theorem build_of_addNodes (added : empty.addNodes strictly graph.nodes = .ok wiring) :
    build strictly graph = wiring.addEdges strictly graph.edges := by
  rw [build, added]
  rfl

/-- A graph is built as it was drawn, if its ids are distinct and its edges live. -/
theorem strict_eq_ok_iff :
    strict graph = .ok wiring ↔ wiring.nodes = graph.nodes ∧ wiring.edges = graph.edges := by
  constructor
  · intro h
    cases added : empty.addNodes true graph.nodes with
    | error error =>
        rw [strict, build, added] at h
        contradiction
    | ok start =>
        rw [strict, build_of_addNodes added, addEdges_true_iff] at h
        obtain ⟨nodes, edges⟩ := addNodes_true_iff.1 added
        refine ⟨h.1.trans nodes, ?_⟩
        rw [h.2, edges]
        rfl
  · rintro ⟨nodes, edges⟩
    let start : Wiring := ⟨wiring.nodes, [], wiring.distinct, by simp⟩
    have added : empty.addNodes true graph.nodes = .ok start := addNodes_true_iff.2 ⟨nodes, rfl⟩
    rw [strict, build_of_addNodes added]
    exact addEdges_true_iff.2 ⟨rfl, edges⟩

/-- A lenient build makes of a graph what a strict build makes of the tidied graph. -/
theorem build_false (graph : Graph) : build false graph = strict graph.tidied := by
  obtain ⟨start, added⟩ := exists_addNodes_false empty graph.nodes
  have tidy : empty.addNodes true graph.tidied.nodes = .ok start := by
    rw [← added, addNodes_false, List.filter_eq_self.2 fun _ _ => by simp [empty, ids]]
    rfl
  obtain ⟨nodes, -⟩ := addNodes_true_iff.1 tidy
  have live : graph.edges.filter (fun edge => edge.source ∈ start.ids ∧ edge.target ∈ start.ids) =
      graph.tidied.edges := by
    refine List.filter_congr fun edge _ => ?_
    rw [Bool.eq_iff_iff, decide_eq_true_iff, Graph.isLive_iff, ids, nodes]
    exact and_congr Graph.mem_ids_firsts Graph.mem_ids_firsts
  rw [strict, build_of_addNodes tidy, build_of_addNodes added, addEdges_false, live]

/-- Nothing is tidied in a graph that can be built as it was drawn. -/
theorem tidied_of_strict (built : strict graph = .ok wiring) : graph.tidied = graph := by
  obtain ⟨hnodes, hedges⟩ := strict_eq_ok_iff.1 built
  have nodes : firsts graph.nodes = graph.nodes := Graph.firsts_eq_self (hnodes ▸ wiring.distinct)
  have edges : graph.edges.filter graph.isLive = graph.edges := by
    refine List.filter_eq_self.2 fun edge he => Graph.isLive_iff.2 ?_
    rw [Graph.ids, ← hnodes]
    exact wiring.live edge (hedges ▸ he)
  rw [Graph.tidied, nodes, edges]

/-- A lenient build never takes the branch of a build that failed. -/
theorem build_eq_lenient (graph : Graph) : build false graph = .ok (lenient graph) := by
  unfold lenient
  split
  · assumption
  · rename_i error built
    exact absurd built (build_false_ne_error graph error)

theorem strict_tidied (graph : Graph) : strict graph.tidied = .ok (lenient graph) :=
  (build_false graph).symm.trans (build_eq_lenient graph)

theorem nodes_lenient (graph : Graph) : (lenient graph).nodes = firsts graph.nodes :=
  (strict_eq_ok_iff.1 (strict_tidied graph)).1

theorem edges_lenient (graph : Graph) : (lenient graph).edges = graph.edges.filter graph.isLive :=
  (strict_eq_ok_iff.1 (strict_tidied graph)).2

theorem node?_lenient (graph : Graph) (id : String) :
    (lenient graph).node? id = graph.findNode? id := by
  rw [node?, nodes_lenient, Graph.find?_firsts]
  rfl

/-- A lenient build succeeds on every graph, and with what a strict build makes of the tidied graph:
both wirings have the same nodes and edges in the same order, and so they have the same execution
order, or error, and every id has the same ancestors and descendants. An id names the first node
that was drawn with it. A strict build of the graph itself succeeds just if there is nothing to
tidy, and then it agrees with the lenient one. -/
theorem lenient_builds_tidied (graph : Graph) :
    build false graph = .ok (lenient graph) ∧
    strict graph.tidied = .ok (lenient graph) ∧
    (lenient graph).nodes = graph.tidied.nodes ∧ (lenient graph).edges = graph.tidied.edges ∧
    (∀ id, (lenient graph).node? id = graph.findNode? id) ∧
    ∀ wiring, strict graph = .ok wiring ↔ graph.tidied = graph ∧ wiring = lenient graph := by
  refine ⟨build_eq_lenient graph, strict_tidied graph, nodes_lenient graph, edges_lenient graph,
    node?_lenient graph, fun wiring => ?_⟩
  have built := strict_tidied graph
  constructor
  · intro drawn
    have tidy := tidied_of_strict drawn
    rw [tidy, drawn] at built
    exact ⟨tidy, Except.ok.inj built⟩
  · rintro ⟨tidy, rfl⟩
    rwa [tidy] at built

/-- The second node with one id goes, and the edge to no node. -/
example :
    let graph : Graph := ⟨[.ofId "a" .query, .ofId "b" .agent, .ofId "a" .generate],
      [⟨"e1", "a", "c"⟩, ⟨"e2", "a", "b"⟩]⟩
    strict graph = .error (.duplicateNode "a") ∧
      (lenient graph).nodes = [.ofId "a" .query, .ofId "b" .agent] ∧
      (lenient graph).edges = [⟨"e2", "a", "b"⟩] :=
  ⟨rfl, rfl, rfl⟩

end Wiring

end Canvas
