import Canvas.Event

/-!
# Tracers

A tracer is a bounded history of recent runs, rebuilt from the events it records. A run is admitted
when it starts; when there is no room the run admitted first is forgotten with its steps. Events of
runs that it does not hold change nothing.
-/

namespace Canvas

/-- A run and its steps as far as their events tell. -/
abbrev Traced := RunReport

/-- The runs that are held, in a queue of ids in order of admission and a table from ids to runs. -/
structure Tracer where
  capacity : Nat
  admitted : List Uuid
  table : List (Uuid × Traced)

namespace Tracer

/-- A tracer that holds no run. It has room for at least one. -/
def ofCapacity (capacity : Nat) : Tracer := ⟨max capacity 1, [], []⟩

/-- What is held of a run. -/
def find? (tracer : Tracer) (id : Uuid) : Option Traced :=
  (tracer.table.find? (·.1 = id)).map (·.2)

/-- Change what is held of a run. -/
def update (tracer : Tracer) (id : Uuid) (change : Traced → Traced) : Tracer :=
  { tracer with
    table := tracer.table.map fun entry =>
      if entry.1 = id then (entry.1, change entry.2) else entry }

/-- Forget the oldest runs until no more are held than there is room for. -/
def evict (tracer : Tracer) : Tracer :=
  let excess := tracer.admitted.length - tracer.capacity
  let evicted := tracer.admitted.take excess
  { tracer with
    admitted := tracer.admitted.drop excess
    table := tracer.table.filter fun entry => !evicted.contains entry.1 }

/-- Admit a run that has just started. A run that is held already is kept as it is. -/
def enrol (tracer : Tracer) (id : Uuid) (canvasId : String) (input : Record)
    (startedAt : Timestamp) : Tracer :=
  match tracer.find? id with
  | some _ => tracer
  | none =>
    evict { tracer with
      admitted := tracer.admitted ++ [id]
      table := tracer.table ++ [(id, ⟨Run.started id canvasId input startedAt, []⟩)] }

/-- Change the first step with an id. -/
def updateStep (steps : List StepRecord) (id : Uuid) (change : StepRecord → StepRecord) :
    List StepRecord :=
  match steps with
  | [] => []
  | step :: rest => if step.id = id then change step :: rest else step :: updateStep rest id change

/-- What an event after the first tells about a run that is held. -/
def apply (event : Event) (traced : Traced) : Traced :=
  match event.payload with
  | .runStarted .. | .stepProgress .. => traced
  | .runCompleted output _ => { traced with run := traced.run.complete output event.timestamp }
  | .runFailed error => { traced with run := traced.run.fail error event.timestamp }
  | .stepStarted step input =>
    { traced with
      steps := traced.steps ++
        [StepRecord.started step.stepId event.runId step.nodeId step.nodeType step.label input
          event.timestamp] }
  | .stepCompleted step output latencyMs =>
    { traced with
      steps := updateStep traced.steps step.stepId (·.complete output latencyMs event.timestamp) }
  | .stepFailed step error latencyMs =>
    { traced with
      steps := updateStep traced.steps step.stepId (·.fail error latencyMs event.timestamp) }

/-- Record one event. -/
def record (tracer : Tracer) (event : Event) : Tracer :=
  match event.payload with
  | .runStarted canvasId input _ => tracer.enrol event.runId canvasId input event.timestamp
  | _ => tracer.update event.runId (apply event)

/-- Record events one after the other. -/
def recordAll (tracer : Tracer) (events : List Event) : Tracer := events.foldl record tracer

/-- A run. -/
def run? (tracer : Tracer) (id : Uuid) : Option Run := (tracer.find? id).map (·.run)

/-- The steps of a run in the order in which they were dispatched; none if it is not held. -/
def steps (tracer : Tracer) (id : Uuid) : List StepRecord :=
  ((tracer.find? id).map (·.steps)).getD []

/-- The output of the first step of a node. -/
def stepOutput? (tracer : Tracer) (id : Uuid) (nodeId : String) : Option Record :=
  ((tracer.steps id).find? (·.nodeId = nodeId)).bind (·.output)

/-- The runs of a canvas, the latest started first; of runs that started together the latest
admitted first. -/
def runsOfCanvas (tracer : Tracer) (canvasId : String) : List Run :=
  ((tracer.admitted.reverse.filterMap tracer.run?).filter (·.canvasId = canvasId)).mergeSort
    fun a b => b.startedAt.notAfter a.startedAt

/-- The number of runs that are held. -/
def size (tracer : Tracer) : Nat := tracer.table.length

end Tracer

end Canvas
