import Canvas.Graph.Wiring

/-!
# Ancestors and descendants

The nodes that can be reached from a node along edges, and the nodes from which it can be reached,
both nearest first: nodes wait in a queue until they are left, so those at one distance are left
before those at the next. `Reaches` is the relation behind them.
-/

namespace Canvas

/-- Whether a path of at least one step leads from one vertex to another. -/
inductive Reaches (next : String → List String) : String → String → Prop where
  | step {a b : String} : b ∈ next a → Reaches next a b
  | cons {a b c : String} : b ∈ next a → Reaches next b c → Reaches next a c

/-- The vertices reached by a breadth-first search, in order. `done` were left already, `queue` wait
to be left next; a vertex joins the queue when it is first seen. -/
def breadthFirst (next : String → List String) :
    (fuel : Nat) → (done queue : List String) → List String
  | 0, done, queue => done ++ queue
  | _ + 1, done, [] => done
  | fuel + 1, done, v :: rest =>
    let fresh := (next v).eraseDups.filter fun u => !(done ++ v :: rest).contains u
    breadthFirst next fuel (done ++ [v]) (rest ++ fresh)

namespace Wiring

variable (wiring : Wiring)

/-- All vertices that a search meets from a node, without the node itself. A search leaves every
vertex at most once. -/
def reached (next : String → List String) (id : String) : List String :=
  if wiring.ids.contains id then (breadthFirst next wiring.nodes.length [] [id]).drop 1 else []

/-- Every node that can be reached from a node, nearest first. -/
def descendants (id : String) : List Node := wiring.nodesOf (wiring.reached wiring.successors id)

/-- Every node from which a node can be reached, nearest first. -/
def ancestors (id : String) : List Node := wiring.nodesOf (wiring.reached wiring.predecessors id)

/-- Whether a path of at least one edge leads from one node to another. -/
def Leads (source target : String) : Prop := Reaches wiring.successors source target

/-- Whether no node lies on a cycle. -/
def Acyclic : Prop := ∀ id, ¬ wiring.Leads id id

end Wiring

end Canvas
