import Canvas.Engine
import Canvas.Service.Endpoint

/-!
# The service

A server holds one engine with an executor for every node type and answers requests one by one. Only
a request that starts a run changes it. A run that fails is still an answer of its own: the report
tells how it ended.
-/

namespace Canvas.Service

open Http (Request Response)

/-- A canvas to be executed and the input to execute it with. -/
structure RunRequest where
  graph : Graph
  input : Record

/-- The body of a request that starts a run. The input may be left out. -/
def RunRequest.shape : Json.Shape RunRequest where
  name := "RunRequest"
  fields :=
    .cons (.required "graph" Graph.shape.decode Graph.shape.encode) <|
    .cons (.defaulted "input" Json.record .ofRecord Dict.empty) .nil
  make := fun (graph, input, _) => ⟨graph, input⟩
  split := fun request => (request.graph, request.input, ())

/-- The state of the service. -/
structure Server where
  engine : Engine

namespace Server

/-- Start a server. -/
def start (settings : Settings) : Except RegistryError Server :=
  Server.mk <$> Engine.build Registry.echoing Resolver.standard settings

/-- The runs that are remembered. -/
def tracer (server : Server) : Tracer := server.engine.tracer

/-- The version that a healthy server reports. -/
def version : String := "0.1.0"

/-- A server that answers is healthy. -/
def healthResponse : Response :=
  .ok (.obj [("service", .str "canvas"), ("status", .str "healthy"), ("version", .str version)])

/-- A node type, its rules, and its executor. -/
def typeEntry (registry : Registry) (type : NodeType) : Json :=
  .obj [("type", type.encode), ("entry", .bool type.isEntry), ("terminal", .bool type.isTerminal),
    ("allowedTargets", .arr (type.targets.map NodeType.encode)),
    ("registered", .bool (registry.contains type)),
    ("description", .str ((registry.description? type).getD ""))]

/-- All node types. -/
def typesResponse (registry : Registry) : Response :=
  .ok (.arr (NodeType.all.map (typeEntry registry)))

/-- The answer about a run that is not held. -/
def runMissing (id : Uuid) : Response := .notFound ("Run " ++ id.toString ++ " not found")

/-- A run, if it is held. -/
def runResponse (tracer : Tracer) (id : Uuid) : Response :=
  match tracer.run? id with
  | some run => .ok (Run.shape.encode run)
  | none => runMissing id

/-- The steps of a run, if it is held. The run is looked for in one state of the tracer and its
steps are taken from a later one; other runs may have been recorded between the two. -/
def stepsResponse (tracer later : Tracer) (id : Uuid) : Response :=
  match tracer.run? id with
  | some _ => .ok (.arr ((later.steps id).map StepRecord.shape.encode))
  | none => runMissing id

/-- The output of a node in a run, if there is one. -/
def outputResponse (tracer : Tracer) (id : Uuid) (nodeId : String) : Response :=
  match tracer.stepOutput? id nodeId with
  | some output => .ok (.ofRecord output)
  | none => .notFound ("No output for step " ++ nodeId ++ " in run " ++ id.toString)

/-- The runs of a canvas that are held. -/
def runsResponse (tracer : Tracer) (canvasId : String) : Response :=
  .ok (.arr ((tracer.runsOfCanvas canvasId).map Run.shape.encode))

/-- The findings about the canvas in a request. -/
def validationResponse (request : Request) : Response :=
  match request.decodeBody Graph.shape.decode with
  | .ok graph => .ok (Findings.shape.encode graph.validate)
  | .error refusal => refusal

/-- Execute the canvas in a request. -/
def startRun (server : Server) (draws : Draws) (canvasId : String) (request : Request) :
    Response × Server :=
  match request.decodeBody RunRequest.shape.decode with
  | .ok ⟨graph, input⟩ =>
    let (execution, engine) := server.engine.run draws canvasId graph input
    (.ok execution.report.encode, ⟨engine⟩)
  | .error refusal => (refusal, server)

/-- Answer a request for an endpoint. -/
def answer (server : Server) (draws : Draws) (request : Request) : Endpoint → Response × Server
  | .health => (healthResponse, server)
  | .nodeTypes => (typesResponse server.engine.registry, server)
  | .validation => (validationResponse request, server)
  | .startRun canvasId => server.startRun draws canvasId request
  | .canvasRuns canvasId => (runsResponse server.tracer canvasId, server)
  | .run id => (runResponse server.tracer id, server)
  | .steps id => (stepsResponse server.tracer server.tracer id, server)
  | .stepOutput id nodeId => (outputResponse server.tracer id nodeId, server)
  | .eventStream => (⟨400, .empty⟩, server)

/-- Answer a request. `draws` serves the run that the request may start. -/
def handle (server : Server) (draws : Draws) (request : Request) : Response × Server :=
  match Endpoint.ofRequest? request with
  | some endpoint => server.answer draws request endpoint
  | none => (.noEndpoint, server)

/-- Answer requests one after the other. -/
def handleAll (server : Server) : List (Draws × Request) → List Response × Server
  | [] => ([], server)
  | (draws, request) :: rest =>
    let (response, server) := server.handle draws request
    let (responses, server) := server.handleAll rest
    (response :: responses, server)

end Server

end Canvas.Service
