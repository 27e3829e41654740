import Canvas.Graph.Basic
import Canvas.PlanningError

/-!
# Wirings

A `Wiring` is a graph in which ids name nodes without ambiguity: no two nodes share an id, and every
edge leads from a node to a node. It is built from a graph by adding the nodes and then the edges,
each in order and behind the others, since their order decides every order derived from it.

Not every node and edge can be added. A strict build ends at the first that cannot and names the
fault. A lenient build passes over it and goes on, so that it always ends with a wiring.
-/

namespace Canvas

namespace Graph

/-- The ids of the nodes, in order. -/
def ids (graph : Graph) : List String := graph.nodes.map (·.id)

end Graph

/-- A graph whose ids are distinct and whose edges lead from node to node. -/
@[ext]
structure Wiring where
  nodes : List Node
  edges : List Edge
  distinct : (nodes.map (·.id)).Nodup
  live : ∀ edge ∈ edges, edge.source ∈ nodes.map (·.id) ∧ edge.target ∈ nodes.map (·.id)

namespace Wiring

/-- The wiring without nodes and edges. -/
def empty : Wiring := ⟨[], [], .nil, by simp⟩

variable (wiring : Wiring)

/-- The ids of the nodes, in order. -/
def ids : List String := wiring.nodes.map (·.id)

/-- Add a node with a new id behind the others. -/
def addNode (node : Node) (fresh : node.id ∉ wiring.ids) : Wiring where
  nodes := wiring.nodes ++ [node]
  edges := wiring.edges
  distinct := by
    rw [List.map_append, List.nodup_append]
    refine ⟨wiring.distinct, by simp, ?_⟩
    intro id hid other ho same
    rw [same, List.mem_singleton.1 ho] at hid
    exact fresh hid
  live := by
    intro edge he
    rw [List.map_append]
    obtain ⟨source, target⟩ := wiring.live edge he
    exact ⟨List.mem_append_left _ source, List.mem_append_left _ target⟩

/-- Add an edge from node to node behind the others. -/
def addEdge (edge : Edge) (ends : edge.source ∈ wiring.ids ∧ edge.target ∈ wiring.ids) :
    Wiring where
  nodes := wiring.nodes
  edges := wiring.edges ++ [edge]
  distinct := wiring.distinct
  live := by
    intro other ho
    rcases List.mem_append.1 ho with ho | ho
    · exact wiring.live other ho
    · exact (List.mem_singleton.1 ho) ▸ ends

/-- Add nodes, first to last. A node whose id is there already is a fault, or it is passed over. -/
def addNodes (strict : Bool) : Wiring → List Node → Except PlanningError Wiring
  | wiring, [] => .ok wiring
  | wiring, node :: rest =>
    if known : node.id ∈ wiring.ids then
      if strict then .error (.duplicateNode node.id) else addNodes strict wiring rest
    else addNodes strict (wiring.addNode node known) rest

/-- Add edges, first to last. An edge with an unknown end is a fault, or it is passed over. If both
ends are unknown the fault names the source. -/
def addEdges (strict : Bool) : Wiring → List Edge → Except PlanningError Wiring
  | wiring, [] => .ok wiring
  | wiring, edge :: rest =>
    if ends : edge.source ∈ wiring.ids ∧ edge.target ∈ wiring.ids then
      addEdges strict (wiring.addEdge edge ends) rest
    else if !strict then addEdges strict wiring rest
    else if edge.source ∉ wiring.ids then .error (.unknownNode edge.id edge.source)
    else .error (.unknownNode edge.id edge.target)

/-- Add the nodes of a graph and then its edges. -/
def build (strict : Bool) (graph : Graph) : Except PlanningError Wiring := do
  let wiring ← empty.addNodes strict graph.nodes
  wiring.addEdges strict graph.edges

theorem exists_addNodes_false (wiring : Wiring) (nodes : List Node) :
    ∃ built, wiring.addNodes false nodes = .ok built := by
  induction nodes generalizing wiring with
  | nil => exact ⟨wiring, rfl⟩
  | cons node rest ih =>
    by_cases known : node.id ∈ wiring.ids
    · simpa [addNodes, known] using ih wiring
    · simpa [addNodes, known] using ih (wiring.addNode node known)

theorem exists_addEdges_false (wiring : Wiring) (edges : List Edge) :
    ∃ built, wiring.addEdges false edges = .ok built := by
  induction edges generalizing wiring with
  | nil => exact ⟨wiring, rfl⟩
  | cons edge rest ih =>
    by_cases ends : edge.source ∈ wiring.ids ∧ edge.target ∈ wiring.ids
    · simpa [addEdges, ends] using ih (wiring.addEdge edge ends)
    · simpa [addEdges, ends] using ih wiring

/-- A lenient build does not fail. -/
theorem build_false_ne_error (graph : Graph) (error : PlanningError) :
    build false graph ≠ .error error := by
  obtain ⟨wiring, nodes⟩ := exists_addNodes_false empty graph.nodes
  obtain ⟨built, edges⟩ := exists_addEdges_false wiring graph.edges
  have succeeded : build false graph = .ok built := by
    rw [build, nodes]
    exact edges
  rw [succeeded]
  intro failed
  cases failed

/-- The graph as drawn, or its first fault. -/
def strict (graph : Graph) : Except PlanningError Wiring := build true graph

/-- The graph without what cannot be added. -/
def lenient (graph : Graph) : Wiring :=
  match built : build false graph with
  | .ok wiring => wiring
  | .error error => absurd built (build_false_ne_error graph error)

/-- The node with an id. -/
def node? (id : String) : Option Node := wiring.nodes.find? (·.id = id)

/-- The nodes with the given ids. -/
def nodesOf (ids : List String) : List Node := ids.filterMap wiring.node?

/-- The edges that leave a node, in order. -/
def outgoing (id : String) : List Edge := wiring.edges.filter (·.source = id)

/-- The edges that enter a node, in order. -/
def incoming (id : String) : List Edge := wiring.edges.filter (·.target = id)

/-- The nodes that a node feeds, along the latest edge first. A node is listed once for each
edge. -/
def successors (id : String) : List String := (wiring.outgoing id).reverse.map (·.target)

/-- The nodes that feed a node, along the latest edge first. A node is listed once for each edge. -/
def predecessors (id : String) : List String := (wiring.incoming id).reverse.map (·.source)

/-- The latest edge from one node to another. -/
def latestEdge? (source target : String) : Option Edge :=
  wiring.edges.reverse.find? fun edge => edge.source = source && edge.target = target

end Wiring

end Canvas
