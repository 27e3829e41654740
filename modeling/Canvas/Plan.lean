import Canvas.Graph.Order
import Canvas.Validation

/-!
# Plans

A plan is a canvas compiled for one run: its nodes in execution order, each with the nodes that feed
it. Only a valid canvas has a plan, whether or not it was validated before.
-/

namespace Canvas

/-- One node of a plan and the ids of the nodes that feed it. -/
structure PlanStep where
  nodeId : String
  nodeType : NodeType
  label : String
  config : Record
  inputs : List String

/-- The steps of a run in order, and for each node the nodes that feed it. -/
structure Plan where
  steps : List PlanStep
  inputMapping : Dict (List String)

namespace PlanStep

/-- A step in JSON. -/
def encode (step : PlanStep) : Json :=
  .obj [("nodeId", .str step.nodeId), ("nodeType", step.nodeType.encode),
    ("label", .str step.label), ("config", .ofRecord step.config),
    ("inputs", .ofStrings step.inputs)]

end PlanStep

namespace Plan

/-- The number of steps. -/
def size (plan : Plan) : Nat := plan.steps.length

/-- The step of a node. -/
def step? (plan : Plan) (nodeId : String) : Option PlanStep :=
  plan.steps.find? (·.nodeId = nodeId)

/-- A plan in JSON. -/
def encode (plan : Plan) : Json :=
  .obj [("steps", .arr (plan.steps.map PlanStep.encode)),
    ("inputMapping", .obj (plan.inputMapping.entries.map fun (id, sources) =>
      (id, .ofStrings sources)))]

end Plan

namespace Graph

/-- The sources of the edges into a node, each once, in the order of its first edge. -/
def sourcesOf (graph : Graph) (id : String) : List String :=
  ((graph.edges.filter (·.target = id)).map (·.source)).eraseDups

/-- For each node the nodes that feed it. -/
def inputMapping (graph : Graph) : Dict (List String) :=
  Dict.ofList (graph.ids.map fun id => (id, graph.sourcesOf id))

/-- Compile a canvas. -/
def plan (graph : Graph) : Except PlanningError Plan := do
  let findings := graph.validate
  if !findings.valid then throw (.invalidGraph findings.errors)
  let wiring ← Wiring.strict graph
  let nodes ← wiring.orderedNodes
  let inputMapping := graph.inputMapping
  let steps := nodes.map fun node : Node =>
    { nodeId := node.id, nodeType := node.type, label := node.label, config := node.config
      inputs := (inputMapping.find? node.id).getD [] }
  return ⟨steps, inputMapping⟩

end Graph

end Canvas
