import Canvas.NodeType
import Canvas.Timestamp
import Canvas.Uuid

/-!
# Runs and step records

A `Run` is one execution of a canvas against an input; a `StepRecord` is the execution of one node
within it. Both pass from running to completed or failed, and keep what they had before.
-/

namespace Canvas

/-- How far a run or a step has come. -/
inductive Status where
  | pending
  | running
  | completed
  | failed
  deriving DecidableEq, Inhabited

namespace Status

/-- Every status. -/
def all : List Status := [pending, running, completed, failed]

/-- The written name. -/
def name : Status → String
  | pending => "pending"
  | running => "running"
  | completed => "completed"
  | failed => "failed"

instance : ToString Status := ⟨name⟩

/-- Decode a status from its name. -/
def decode : Json.Decoder Status := Json.choice (all.map fun s => (s.name, s))

/-- Encode a status as its name. -/
def encode (s : Status) : Json := .str s.name

end Status

/-- One execution of a canvas against an input. -/
structure Run where
  id : Uuid
  canvasId : String
  input : Record
  status : Status
  output : Option Record
  error : Option String
  startedAt : Timestamp
  completedAt : Option Timestamp

namespace Run

/-- A run that has not begun. -/
def pending (id : Uuid) (canvasId : String) (input : Record) (startedAt : Timestamp) : Run :=
  ⟨id, canvasId, input, .pending, none, none, startedAt, none⟩

/-- A run that has begun. -/
def started (id : Uuid) (canvasId : String) (input : Record) (startedAt : Timestamp) : Run :=
  { pending id canvasId input startedAt with status := .running }

/-- The run after it produced an output. -/
def complete (run : Run) (output : Record) (at_ : Timestamp) : Run :=
  { run with status := .completed, output := some output, completedAt := some at_ }

/-- The run after an error ended it. -/
def fail (run : Run) (error : String) (at_ : Timestamp) : Run :=
  { run with status := .failed, error := some error, completedAt := some at_ }

/-- A run in JSON. -/
def shape : Json.Shape Run where
  name := "Run"
  fields :=
    .cons (.required "id" Uuid.decode Uuid.encode) <|
    .cons (.string "canvasId") <|
    .cons (.record "input") <|
    .cons (.required "status" Status.decode Status.encode) <|
    .cons (.optional "output" Json.record .ofRecord) <|
    .cons (.optional "error" Json.string .str) <|
    .cons (.required "startedAt" Timestamp.decode Timestamp.encode) <|
    .cons (.optional "completedAt" Timestamp.decode Timestamp.encode) .nil
  make := fun (id, canvasId, input, status, output, error, startedAt, completedAt, _) =>
    ⟨id, canvasId, input, status, output, error, startedAt, completedAt⟩
  split := fun r =>
    (r.id, r.canvasId, r.input, r.status, r.output, r.error, r.startedAt, r.completedAt, ())

end Run

/-- The execution of one node within a run. -/
structure StepRecord where
  id : Uuid
  runId : Uuid
  nodeId : String
  nodeType : NodeType
  label : String
  status : Status
  input : Record
  output : Option Record
  error : Option String
  latencyMs : Option Nat
  startedAt : Timestamp
  completedAt : Option Timestamp

namespace StepRecord

/-- A step that was just dispatched. -/
def started (id runId : Uuid) (nodeId : String) (nodeType : NodeType) (label : String)
    (input : Record) (startedAt : Timestamp) : StepRecord :=
  ⟨id, runId, nodeId, nodeType, label, .running, input, none, none, none, startedAt, none⟩

/-- The step after it produced an output. -/
def complete (step : StepRecord) (output : Record) (latencyMs : Nat) (at_ : Timestamp) :
    StepRecord :=
  { step with
    status := .completed, output := some output, latencyMs := some latencyMs,
    completedAt := some at_ }

/-- The step after an error ended it. -/
def fail (step : StepRecord) (error : String) (latencyMs : Nat) (at_ : Timestamp) : StepRecord :=
  { step with
    status := .failed, error := some error, latencyMs := some latencyMs, completedAt := some at_ }

/-- A step record in JSON. -/
def shape : Json.Shape StepRecord where
  name := "StepRecord"
  fields :=
    .cons (.required "id" Uuid.decode Uuid.encode) <|
    .cons (.required "runId" Uuid.decode Uuid.encode) <|
    .cons (.string "nodeId") <|
    .cons (NodeType.field "nodeType") <|
    .cons (.string "label") <|
    .cons (.required "status" Status.decode Status.encode) <|
    .cons (.record "input") <|
    .cons (.optional "output" Json.record .ofRecord) <|
    .cons (.optional "error" Json.string .str) <|
    .cons (.optional "latencyMs" Json.counter fun n => .int n) <|
    .cons (.required "startedAt" Timestamp.decode Timestamp.encode) <|
    .cons (.optional "completedAt" Timestamp.decode Timestamp.encode) .nil
  make := fun (id, runId, nodeId, nodeType, label, status, input, output, error, latencyMs,
      startedAt, completedAt, _) =>
    ⟨id, runId, nodeId, nodeType, label, status, input, output, error, latencyMs, startedAt,
      completedAt⟩
  split := fun s =>
    (s.id, s.runId, s.nodeId, s.nodeType, s.label, s.status, s.input, s.output, s.error,
      s.latencyMs, s.startedAt, s.completedAt, ())

end StepRecord

/-- The final state of a run and of the steps it dispatched. -/
structure RunReport where
  run : Run
  steps : List StepRecord

namespace RunReport

/-- Whether the run completed. -/
def succeeded (report : RunReport) : Bool := report.run.status = .completed

/-- A report in JSON. -/
def encode (report : RunReport) : Json :=
  .obj [("run", Run.shape.encode report.run),
    ("steps", .arr (report.steps.map StepRecord.shape.encode))]

end RunReport

end Canvas
