import Canvas.NodeType

/-!
# Canvas graphs

A canvas is a list of typed nodes and a list of directed edges between them, as the user drew it:
ids may be repeated and edges may lead nowhere.
-/

namespace Canvas

/-- A node of a canvas: its kind, how it is labelled, and the settings of its executor. -/
structure Node where
  id : String
  type : NodeType
  label : String
  config : Record

/-- A directed connection. -/
structure Edge where
  id : String
  source : String
  target : String
  deriving DecidableEq

/-- What a user drew: nodes and edges, each in the order in which they were added. -/
structure Graph where
  nodes : List Node
  edges : List Edge

namespace Node

/-- A node labelled with its own id. -/
def ofId (id : String) (type : NodeType) : Node := ⟨id, type, id, Dict.empty⟩

/-- The same node with another label. -/
def withLabel (node : Node) (label : String) : Node := { node with label }

/-- The same node with a setting written to its configuration. -/
def withConfig (node : Node) (key : String) (value : Json) : Node :=
  { node with config := node.config.insert key value }

/-- A node in JSON. Label and configuration may be left out. -/
def shape : Json.Shape Node where
  name := "CanvasNode"
  fields :=
    .cons (.string "id") <|
    .cons (.required "type" NodeType.decode NodeType.encode) <|
    .cons (.defaulted "label" Json.string .str "") <|
    .cons (.defaulted "config" Json.record .ofRecord Dict.empty) .nil
  make := fun (id, type, label, config, _) => ⟨id, type, label, config⟩
  split := fun node => (node.id, node.type, node.label, node.config, ())

end Node

namespace Edge

/-- The id of an edge that is named after its ends. -/
def idBetween (source target : String) : String := source ++ "->" ++ target

/-- An edge in JSON. -/
def shape : Json.Shape Edge where
  name := "CanvasEdge"
  fields := .cons (.string "id") <| .cons (.string "source") <| .cons (.string "target") .nil
  make := fun (id, source, target, _) => ⟨id, source, target⟩
  split := fun edge => (edge.id, edge.source, edge.target, ())

end Edge

namespace Graph

/-- The graph without nodes and edges. -/
def empty : Graph := ⟨[], []⟩

instance : Inhabited Graph := ⟨empty⟩

/-- Add a node behind the others. -/
def addNode (graph : Graph) (node : Node) : Graph := { graph with nodes := graph.nodes ++ [node] }

/-- Add an edge behind the others. -/
def addEdge (graph : Graph) (edge : Edge) : Graph := { graph with edges := graph.edges ++ [edge] }

/-- Add an edge that is named after its ends. -/
def connect (graph : Graph) (source target : String) : Graph :=
  graph.addEdge ⟨Edge.idBetween source target, source, target⟩

/-- The first node with an id. -/
def findNode? (graph : Graph) (id : String) : Option Node := graph.nodes.find? (·.id = id)

/-- A graph in JSON. -/
def shape : Json.Shape Graph where
  name := "CanvasGraph"
  fields :=
    .cons (.required "nodes" (Json.list Node.shape.decode) fun nodes =>
      .arr (nodes.map Node.shape.encode)) <|
    .cons (.required "edges" (Json.list Edge.shape.decode) fun edges =>
      .arr (edges.map Edge.shape.encode)) .nil
  make := fun (nodes, edges, _) => ⟨nodes, edges⟩
  split := fun graph => (graph.nodes, graph.edges, ())

end Graph

end Canvas
