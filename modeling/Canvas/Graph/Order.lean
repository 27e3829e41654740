import Canvas.Graph.Reach

/-!
# Execution order

Nodes are placed one after the other. A node is released into a queue once every edge into it comes
from a placed node; nodes without incoming edges are released at the start, entry nodes before the
others. Nodes on a cycle, and those behind one, are never released.
-/

namespace Canvas

/-- The state while nodes are placed: the order so far, the released nodes that wait to be placed,
and for each node the number of edges into it whose source is not placed yet. -/
structure Placement where
  placed : List String
  queue : List String
  waiting : Dict Nat

namespace Placement

/-- The number of edges for which a node still waits. -/
def waitsFor (state : Placement) (id : String) : Nat := (state.waiting.find? id).getD 0

/-- Take away one of the edges for which a node waits; release the node if it was the last. -/
def release (state : Placement) (id : String) : Placement :=
  let left := state.waitsFor id - 1
  { state with
    waiting := state.waiting.insert id left
    queue := if left = 0 then state.queue ++ [id] else state.queue }

/-- Place the first node of the queue and release its targets, edge by edge in the order of the
edges; none if the queue is empty. -/
def step? (wiring : Wiring) (state : Placement) : Option Placement :=
  match state.queue with
  | [] => none
  | id :: rest =>
    let placed := { state with placed := state.placed ++ [id], queue := rest }
    some ((wiring.outgoing id).foldl (fun state edge => state.release edge.target) placed)

/-- Place up to a number of nodes. -/
def advance (wiring : Wiring) : Nat → Placement → Placement
  | 0, state => state
  | count + 1, state =>
    match state.step? wiring with
    | none => state
    | some next => advance wiring count next

end Placement

namespace Wiring

variable (wiring : Wiring)

/-- The nodes without incoming edges, in order. -/
def roots : List Node := wiring.nodes.filter fun node => (wiring.incoming node.id).isEmpty

/-- The nodes that are released at the start: entry nodes, then the others. -/
def initialQueue : List String :=
  ((wiring.roots.filter (·.type.isEntry)) ++ (wiring.roots.filter (!·.type.isEntry))).map (·.id)

/-- The number of edges into each node. -/
def inDegrees : Dict Nat :=
  Dict.ofList (wiring.nodes.map fun node => (node.id, (wiring.incoming node.id).length))

/-- The state before any node is placed. -/
def initialPlacement : Placement := ⟨[], wiring.initialQueue, wiring.inDegrees⟩

/-- The ids of the nodes in execution order. Placing as many nodes as there are empties the queue;
if then some are missing the graph has a cycle. -/
def order : Except PlanningError (List String) :=
  let final := wiring.initialPlacement.advance wiring wiring.nodes.length
  if final.placed.length < wiring.nodes.length then
    .error (.cycleDetected final.placed.length wiring.nodes.length)
  else .ok final.placed

/-- The nodes in execution order. -/
def orderedNodes : Except PlanningError (List Node) := wiring.nodesOf <$> wiring.order

end Wiring

/-- The execution order of a graph as it was drawn, without validating it. -/
def Graph.order (graph : Graph) : Except PlanningError (List String) := do
  let wiring ← Wiring.strict graph
  wiring.order

end Canvas
