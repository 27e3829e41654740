import Canvas.Http.Message
import Canvas.Http.Percent
import Canvas.Uuid

/-!
# Endpoints

What a request is for, by its method and path. Escapes in the path are decoded before it is split,
but for those of percent sign, slash and plus sign: an escaped slash does not separate segments.
What a segment names is found by decoding the remaining escapes.
-/

namespace Canvas.Service

open Http (Method Request)

/-- Something that the service can be asked for. -/
inductive Endpoint where
  | health
  | nodeTypes
  | validation
  | startRun (canvasId : String)
  | canvasRuns (canvasId : String)
  | run (id : Uuid)
  | steps (id : Uuid)
  | stepOutput (id : Uuid) (nodeId : String)
  | eventStream
  deriving DecidableEq

namespace Endpoint

/-- The bytes whose escapes stay when a path is split: percent sign, plus sign and slash. -/
def staysEscaped (byte : UInt8) : Bool := byte = 0x25 || byte = 0x2B || byte = 0x2F

/-- The segments of a path, without the empty one before its first slash. -/
def segments (path : List Char) : List String :=
  let decoded := Http.Percent.decodeExcept staysEscaped (String.ofList path)
  match decoded.toList.splitOn '/' with
  | [] :: rest => rest.map String.ofList
  | _ => []

/-- What a segment names; an empty one names nothing. -/
def named? (segment : String) : Option String :=
  if segment.isEmpty then none else some (Http.Percent.decode segment)

/-- The identifier that a segment names. -/
def identified? (segment : String) : Option Uuid := (named? segment).bind Uuid.ofString?

/-- The endpoint at a path. -/
def find? (method : Method) (segments : List String) : Option Endpoint :=
  match method, segments with
  | .get, ["health"] => some health
  | .get, ["api", "node-types"] => some nodeTypes
  | .post, ["api", "validate"] => some validation
  | .post, ["api", "canvases", canvas, "runs"] => (named? canvas).map startRun
  | .get, ["api", "canvases", canvas, "runs"] => (named? canvas).map canvasRuns
  | .get, ["api", "runs", id] => (identified? id).map run
  | .get, ["api", "runs", id, "steps"] => (identified? id).map steps
  | .get, ["api", "runs", id, "steps", node, "output"] => do
    let nodeId ← named? node
    let id ← identified? id
    return stepOutput id nodeId
  | .get, ["api", "events"] => some eventStream
  | _, _ => none

/-- The endpoint that a request is for. -/
def ofRequest? (request : Request) : Option Endpoint := find? request.method (segments request.path)

end Endpoint

end Canvas.Service
