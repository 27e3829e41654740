import Canvas.Run.Basic

/-!
# Run events

While a run executes it tells its observers what happens. An event names the run and the time; its
payload says what happened. In JSON the payload is a type and its data, and an event is an
envelope in which time, run, type and data stand side by side.
-/

namespace Canvas

open Json (Fields Shape Field Decoder DecodeError Document Mode)

/-- The step that an event is about: its record, its node and its position in the plan. -/
structure StepRef where
  stepId : Uuid
  nodeId : String
  nodeType : NodeType
  label : String
  index : Nat
  deriving DecidableEq

/-- What an event says. -/
inductive Payload where
  | runStarted (canvasId : String) (input : Record) (totalSteps : Nat)
  | runCompleted (output : Record) (totalLatencyMs : Nat)
  | runFailed (error : String)
  | stepStarted (step : StepRef) (input : Record)
  | stepCompleted (step : StepRef) (output : Record) (latencyMs : Nat)
  | stepFailed (step : StepRef) (error : String) (latencyMs : Nat)
  | stepProgress (nodeId : String) (data : Record)

/-- The type of an event. -/
inductive EventKind where
  | runStarted
  | runCompleted
  | runFailed
  | stepStarted
  | stepCompleted
  | stepFailed
  | stepProgress
  deriving DecidableEq

namespace EventKind

/-- Every type of event. -/
def all : List EventKind :=
  [runStarted, runCompleted, runFailed, stepStarted, stepCompleted, stepFailed, stepProgress]

/-- The name under which a type is known to observers. -/
def name : EventKind → String
  | runStarted => "run:started"
  | runCompleted => "run:completed"
  | runFailed => "run:failed"
  | stepStarted => "step:started"
  | stepCompleted => "step:completed"
  | stepFailed => "step:failed"
  | stepProgress => "step:progress"

/-- The name under which a type is written in JSON. -/
def tag : EventKind → String
  | runStarted => "run:started"
  | runCompleted => "run:completed"
  | runFailed => "run:failed"
  | stepStarted => "step:started"
  | stepCompleted => "step:completed"
  | stepFailed => "step:failed"
  | stepProgress => "step:progress"

/-- The name under which errors mention the data of this type. -/
def variantName : EventKind → String
  | runStarted => "RunStarted"
  | runCompleted => "RunCompleted"
  | runFailed => "RunFailed"
  | stepStarted => "StepStarted"
  | stepCompleted => "StepCompleted"
  | stepFailed => "StepFailed"
  | stepProgress => "StepProgress"

/-- The types by their tags. -/
def variants : List (String × EventKind) := all.map fun kind => (kind.tag, kind)

/-- Decode a type. -/
def decode : Decoder EventKind := Json.choice variants

/-- Decode a type where nothing but its tag will do. -/
def decodeName : Decoder EventKind := Json.identifier variants

end EventKind

namespace StepRef

/-- The values of a step reference, followed by others. -/
abbrev Carrier (τ : Type) : Type := Uuid × String × NodeType × String × Nat × τ

/-- The fields of a step reference, followed by others. -/
def fields {τ : Type} (rest : Fields τ) : Fields (Carrier τ) :=
  .cons (.required "stepId" Uuid.decode Uuid.encode) <|
  .cons (.string "nodeId") <|
  .cons (NodeType.field "nodeType") <|
  .cons (.string "label") <|
  .cons (.natural "index" Json.size) rest

/-- The values of the fields, followed by others. -/
def split {τ : Type} (step : StepRef) (rest : τ) : Carrier τ :=
  (step.stepId, step.nodeId, step.nodeType, step.label, step.index, rest)

end StepRef

namespace Payload

/-- The type of a payload. -/
def kind : Payload → EventKind
  | runStarted .. => .runStarted
  | runCompleted .. => .runCompleted
  | runFailed .. => .runFailed
  | stepStarted .. => .stepStarted
  | stepCompleted .. => .stepCompleted
  | stepFailed .. => .stepFailed
  | stepProgress .. => .stepProgress

end Payload

namespace EventKind

/-- The values that the data of each type holds. -/
abbrev Carrier : EventKind → Type
  | runStarted => String × Record × Nat × Unit
  | runCompleted => Record × Nat × Unit
  | runFailed => String × Unit
  | stepStarted => StepRef.Carrier (Record × Unit)
  | stepCompleted => StepRef.Carrier (Record × Nat × Unit)
  | stepFailed => StepRef.Carrier (String × Nat × Unit)
  | stepProgress => String × Record × Unit

/-- The fields of the data of each type. -/
def fields : (kind : EventKind) → Fields kind.Carrier
  | runStarted =>
    .cons (.string "canvasId") <| .cons (.record "input") <|
    .cons (.natural "totalSteps" Json.size) .nil
  | runCompleted =>
    .cons (.record "output") <| .cons (.natural "totalLatencyMs" Json.counter) .nil
  | runFailed => .cons (.string "error") .nil
  | stepStarted => StepRef.fields <| .cons (.record "input") .nil
  | stepCompleted =>
    StepRef.fields <| .cons (.record "output") <| .cons (.natural "latencyMs" Json.counter) .nil
  | stepFailed =>
    StepRef.fields <| .cons (.string "error") <| .cons (.natural "latencyMs" Json.counter) .nil
  | stepProgress => .cons (.string "nodeId") <| .cons (.record "data") .nil

/-- The payload with the given data. -/
def make : (kind : EventKind) → kind.Carrier → Payload
  | runStarted, (canvasId, input, totalSteps, _) => .runStarted canvasId input totalSteps
  | runCompleted, (output, totalLatencyMs, _) => .runCompleted output totalLatencyMs
  | runFailed, (error, _) => .runFailed error
  | stepStarted, (stepId, nodeId, nodeType, label, index, input, _) =>
    .stepStarted ⟨stepId, nodeId, nodeType, label, index⟩ input
  | stepCompleted, (stepId, nodeId, nodeType, label, index, output, latencyMs, _) =>
    .stepCompleted ⟨stepId, nodeId, nodeType, label, index⟩ output latencyMs
  | stepFailed, (stepId, nodeId, nodeType, label, index, error, latencyMs, _) =>
    .stepFailed ⟨stepId, nodeId, nodeType, label, index⟩ error latencyMs
  | stepProgress, (nodeId, data, _) => .stepProgress nodeId data

/-- Decode the data of a type; it must be an object. -/
def decodeData (kind : EventKind) : Decoder Payload := fun mode document =>
  match document with
  | .obj members fault => kind.make <$> kind.fields.decodeMembers mode members fault
  | other => other.mismatch ("struct variant EventPayload::" ++ kind.variantName)

end EventKind

namespace Payload

/-- The values that a payload holds. -/
def split : (payload : Payload) → payload.kind.Carrier
  | runStarted canvasId input totalSteps => (canvasId, input, totalSteps, ())
  | runCompleted output totalLatencyMs => (output, totalLatencyMs, ())
  | runFailed error => (error, ())
  | stepStarted step input => step.split (input, ())
  | stepCompleted step output latencyMs => step.split (output, latencyMs, ())
  | stepFailed step error latencyMs => step.split (error, latencyMs, ())
  | stepProgress nodeId data => (nodeId, data, ())

@[simp] theorem make_split (payload : Payload) : payload.kind.make payload.split = payload := by
  cases payload <;> rfl

/-- The members that stand for a payload: its type and its data. -/
def members (payload : Payload) : List (String × Json) :=
  [("type", .str payload.kind.tag), ("data", .obj (payload.kind.fields.encode payload.split))]

/-- A payload in JSON. -/
def encode (payload : Payload) : Json := .obj payload.members

/-- The name of a payload in errors. -/
def expected : String := "adjacently tagged enum EventPayload"

/-- How much of a payload was seen while its members are read. Data that stands before the type is
set aside until the type is known. -/
inductive Seen where
  | nothing
  | onlyData (document : Document)
  | onlyKind (kind : EventKind)
  | whole (payload : Payload)

/-- Take one more member of a payload. -/
def Seen.take (mode : Mode) (name : String) (document : Document) :
    Seen → Except DecodeError Seen
  | .nothing =>
    if name = "type" then .onlyKind <$> EventKind.decode mode document
    else .onlyData <$> document.buffer
  | .onlyData content =>
    if name = "type" then do
      let kind ← EventKind.decode mode document
      let payload ← kind.decodeData mode.buffered content
      return .whole payload
    else throw (.duplicateField name)
  | .onlyKind kind =>
    if name = "data" then .whole <$> kind.decodeData mode document
    else throw (.duplicateField name)
  | .whole _ => throw (.duplicateField name)

/-- The payload once all members were seen. -/
def Seen.finish : Seen → Except DecodeError Payload
  | .whole payload => .ok payload
  | .onlyKind _ => .error (.missingField "data")
  | .nothing | .onlyData _ => .error (.missingField "type")

/-- Read the type and the data among members. Others are passed over. -/
def Seen.takeAll (mode : Mode) :
    Seen → List (Except Json.Flaw String × Document) → Except DecodeError Seen
  | seen, [] => .ok seen
  | seen, (name, document) :: rest => do
    let name ← Document.demand name
    if name = "type" ∨ name = "data" then
      let seen ← seen.take mode name document
      takeAll mode seen rest
    else
      Document.demand document.skip
      takeAll mode seen rest

/-- Decode a payload from an object or from the list of the tag of its type and its data. -/
def decode : Decoder Payload := fun mode document =>
  match document with
  | .obj members fault => do
    let seen ← Seen.nothing.takeAll mode members
    Document.demand (Document.closeRead fault)
    seen.finish
  | .arr documents fault =>
    match documents with
    | [] => do
      Document.demand (Document.closeRead fault)
      throw (.invalidLength 0 expected)
    | [kind] => do
      let _ ← EventKind.decodeName mode kind
      Document.demand (Document.closeRead fault)
      throw (.invalidLength 1 expected)
    | kind :: content :: left => do
      let kind ← EventKind.decodeName mode kind
      let payload ← kind.decodeData mode content
      Json.closeItems mode documents.length left fault
      return payload
  | other => other.mismatch expected

end Payload

/-- Something that happened in a run. -/
structure Event where
  timestamp : Timestamp
  runId : Uuid
  payload : Payload

namespace Event

/-- The name of the type of an event. -/
def kind (event : Event) : String := event.payload.kind.name

/-- An event in JSON: the members of its payload stand beside its own. -/
def encode (event : Event) : Json :=
  .obj (("timestamp", event.timestamp.encode) :: ("runId", event.runId.encode)
    :: event.payload.members)

/-- What was seen of an envelope while its members are read. Members other than the time and the run
are set aside, for the payload is decoded last. -/
structure Envelope where
  timestamp : Option Timestamp
  runId : Option Uuid
  others : List (Except Json.Flaw String × Document)

/-- Take one more member of an envelope. -/
def Envelope.take (mode : Mode) (envelope : Envelope) (name : String) (document : Document) :
    Except DecodeError Envelope :=
  if name = "timestamp" then
    if envelope.timestamp.isSome then .error (.duplicateField name)
    else do
      let timestamp ← Timestamp.decode mode document
      return { envelope with timestamp := some timestamp }
  else if name = "runId" then
    if envelope.runId.isSome then .error (.duplicateField name)
    else do
      let runId ← Uuid.decode mode document
      return { envelope with runId := some runId }
  else do
    let document ← document.buffer
    return { envelope with others := envelope.others ++ [(.ok name, document)] }

/-- Take all members of an envelope. -/
def Envelope.takeAll (mode : Mode) :
    Envelope → List (Except Json.Flaw String × Document) → Except DecodeError Envelope
  | envelope, [] => .ok envelope
  | envelope, (name, document) :: rest => do
    let name ← Document.demand name
    let envelope ← envelope.take mode name document
    takeAll mode envelope rest

/-- Decode an event. A missing time is reported before a missing run, and both before what is wrong
with the payload. -/
def decode : Decoder Event := fun mode document =>
  match document with
  | .obj members fault => do
    let envelope ← Envelope.takeAll mode ⟨none, none, []⟩ members
    Document.demand (Document.closeRead fault)
    let timestamp ← envelope.timestamp.elim (.error (.missingField "timestamp")) .ok
    let runId ← envelope.runId.elim (.error (.missingField "runId")) .ok
    let seen ← Payload.Seen.nothing.takeAll mode.buffered envelope.others
    let payload ← seen.finish
    return ⟨timestamp, runId, payload⟩
  | other => other.mismatch "struct RunEvent"

end Event

end Canvas
