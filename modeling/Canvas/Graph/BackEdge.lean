import Canvas.Graph.Reach

/-!
# Back edges

A depth-first search from every node finds the edges that close a cycle: those that lead to a node
which the search entered and has not left yet.
-/

namespace Canvas

/-- How far a depth-first search has come: the vertices that were entered, those that were left, and
the back edges found so far, in order. -/
structure DepthFirst where
  entered : List String
  left : List String
  backEdges : List (String × String)

namespace DepthFirst

/-- The search before its start. -/
def start : DepthFirst := ⟨[], [], []⟩

/-- Enter a vertex. -/
def enter (search : DepthFirst) (v : String) : DepthFirst :=
  { search with entered := v :: search.entered }

/-- Leave a vertex. -/
def leave (search : DepthFirst) (v : String) : DepthFirst :=
  { search with left := v :: search.left }

/-- Enter a vertex, follow its edges one after the other, and leave it. The fuel bounds the number
of vertices that are entered and not left. -/
def visit (next : String → List String) : (fuel : Nat) → String → DepthFirst → DepthFirst
  | 0, _, search => search
  | fuel + 1, v, search =>
    let followed := (next v).foldl (fun search u =>
      if !search.entered.contains u then visit next fuel u search
      else if !search.left.contains u then
        { search with backEdges := search.backEdges ++ [(v, u)] }
      else search) (search.enter v)
    followed.leave v

/-- Search from every vertex of a list that was not entered before. -/
def visitAll (next : String → List String) (fuel : Nat) (vertices : List String) : DepthFirst :=
  vertices.foldl (fun search v =>
    if search.entered.contains v then search else visit next fuel v search) start

end DepthFirst

namespace Wiring

variable (wiring : Wiring)

/-- The pairs of nodes between which a back edge was found, in order. -/
def backEdges : List (String × String) :=
  (DepthFirst.visitAll wiring.successors wiring.nodes.length wiring.ids).backEdges

/-- Edges without those whose id occurred before. -/
def distinctEdges : List Edge → List Edge
  | [] => []
  | edge :: rest => edge :: (distinctEdges rest).filter fun other => other.id ≠ edge.id

/-- The edges reported as closing a cycle: for each back edge the latest edge between its nodes, and
no edge id twice. -/
def cycleEdges : List Edge :=
  distinctEdges <| wiring.backEdges.filterMap fun (source, target) =>
    wiring.latestEdge? source target

end Wiring

end Canvas
