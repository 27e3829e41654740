import Canvas.Graph.BackEdge
import Canvas.Issue

/-!
# Validation

A canvas can be run if its ids are distinct, it has an entry and a terminal node, and its edges
connect known nodes of types that may feed each other, without a cycle. What else looks unfinished
about it, such as an unconnected node, is a warning, so that a canvas can be checked while it is
being drawn.

Errors and warnings are listed check by check, in a fixed order.
-/

namespace Canvas

namespace Graph

variable (graph : Graph)

/-- An error for each node whose id occurred before. -/
def duplicateIssues (seen : List String) : List Node → List Issue
  | [] => []
  | node :: rest =>
    if seen.contains node.id then
      .atNode .duplicateNodeId ("Node id '" ++ node.id ++ "' is used more than once") node.id
        :: duplicateIssues seen rest
    else duplicateIssues (node.id :: seen) rest

/-- The entry nodes, repeated ids included. -/
def entries : List Node := graph.nodes.filter (·.type.isEntry)

/-- An error if there is no entry node. -/
def missingEntryIssues : List Issue :=
  if graph.entries.isEmpty then [.general .missingEntryNode "Canvas has no query node"] else []

/-- A warning for each entry node but the first. -/
def extraEntryIssues : List Issue :=
  match graph.entries with
  | [] => []
  | first :: rest => rest.map fun extra =>
    .atNode .multipleEntryNodes
      ("Canvas has more than one query node; only '" ++ first.id ++ "' is used as the entry")
      extra.id

/-- An error if there is no terminal node. -/
def missingTerminalIssues : List Issue :=
  if graph.nodes.any (·.type.isTerminal) then []
  else
    [.general .missingTerminalNode "Canvas has no generate or agent node to produce an output"]

/-- An error if the source of an edge is unknown. -/
def sourceIssues (edge : Edge) : List Issue :=
  if graph.ids.contains edge.source then []
  else
    [.atEdge .invalidSource
      ("Edge '" ++ edge.id ++ "' starts at unknown node '" ++ edge.source ++ "'") edge.id]

/-- An error if the target of an edge is unknown. -/
def targetIssues (edge : Edge) : List Issue :=
  if graph.ids.contains edge.target then []
  else
    [.atEdge .invalidTarget
      ("Edge '" ++ edge.id ++ "' ends at unknown node '" ++ edge.target ++ "'") edge.id]

/-- An error if an edge connects two nodes whose types may not feed each other. Of several nodes
with one id the first counts. -/
def connectionIssues (edge : Edge) : List Issue :=
  match graph.findNode? edge.source, graph.findNode? edge.target with
  | some source, some target =>
    if source.type.feeds target.type then []
    else
      [{ code := .invalidConnection
         message :=
           "A " ++ source.type.name ++ " node cannot feed a " ++ target.type.name ++ " node ('"
             ++ source.id ++ "' -> '" ++ target.id ++ "')"
         nodeId := some target.id
         edgeId := some edge.id }]
  | _, _ => []

/-- The errors of all edges, edge by edge. -/
def edgeIssues : List Issue :=
  graph.edges.flatMap fun edge =>
    graph.sourceIssues edge ++ graph.targetIssues edge ++ graph.connectionIssues edge

end Graph

namespace Wiring

variable (wiring : Wiring)

/-- An error for each edge that closes a cycle. -/
def cycleIssues : List Issue :=
  wiring.cycleEdges.map fun edge =>
    { code := .cycleDetected
      message :=
        "Cycle detected: edge '" ++ edge.id ++ "' leads from '" ++ edge.source ++ "' back to '"
          ++ edge.target ++ "'"
      nodeId := some edge.target
      edgeId := some edge.id }

/-- The nodes in ascending order of id. -/
def nodesById : List Node := wiring.nodes.mergeSort fun a b => a.id ≤ b.id

/-- Warnings about a node that lacks edges it could have. -/
def connectivityIssues (node : Node) : List Issue :=
  (if !node.type.isEntry && (wiring.incoming node.id).isEmpty then
    [.atNode .noIncomingEdges ("Node '" ++ node.id ++ "' has no incoming connections") node.id]
   else [])
  ++ (if !node.type.isTerminal && (wiring.outgoing node.id).isEmpty then
    [.atNode .noOutgoingEdges ("Node '" ++ node.id ++ "' has no outgoing connections") node.id]
   else [])

/-- A warning about a node without an ancestor of the type it expects. -/
def ancestorIssues (node : Node) : List Issue :=
  match node.type.expectedAncestor with
  | none => []
  | some expected =>
    if (wiring.ancestors node.id).any (·.type = expected) then []
    else
      [.atNode .missingAncestor
        (node.type.name ++ " node '" ++ node.id ++ "' typically requires a " ++ expected.name
          ++ " node upstream") node.id]

end Wiring

namespace Graph

variable (graph : Graph)

/-- Everything that keeps the canvas from being run. -/
def errors : List Issue :=
  duplicateIssues [] graph.nodes ++ graph.missingEntryIssues ++ graph.missingTerminalIssues
    ++ graph.edgeIssues ++ (Wiring.lenient graph).cycleIssues

/-- Everything else that looks unfinished. -/
def warnings : List Issue :=
  let wiring := Wiring.lenient graph
  graph.extraEntryIssues ++ wiring.nodesById.flatMap wiring.connectivityIssues
    ++ wiring.nodesById.flatMap wiring.ancestorIssues

/-- Check a canvas and collect every finding. -/
def validate : Findings := .ofIssues graph.errors graph.warnings

end Graph

end Canvas
