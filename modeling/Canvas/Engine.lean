import Canvas.Run.Execution
import Canvas.Settings
import Canvas.Stream.Broadcast
import Canvas.Stream.Tracer

/-!
# Engines

An engine executes canvases with one registry and one resolver. Every event of its runs goes to the
tracer first and to the broadcast then, so that a subscriber who reacts to an event can already ask
the tracer about it. An extra observer of a single run comes last.
-/

namespace Canvas

/-- A registry and a resolver together with the observers of all runs. -/
structure Engine where
  orchestrator : Orchestrator
  tracer : Tracer
  broadcast : Broadcast Event

namespace Engine

/-- Build an engine. It is refused if the settings ask for a complete registry and a node type has
no executor. -/
def build (registry : Registry) (resolver : Resolver) (settings : Settings) :
    Except RegistryError Engine := do
  if settings.requireCompleteRegistry then registry.ensureComplete
  return {
    orchestrator := ⟨registry, resolver⟩
    tracer := .ofCapacity settings.tracerCapacity
    broadcast := .ofCapacity settings.eventBufferSize }

/-- The registry with which runs are executed. -/
def registry (engine : Engine) : Registry := engine.orchestrator.registry

/-- Hand an event to the observers of all runs. -/
def publish (engine : Engine) (event : Event) : Engine :=
  { engine with
    tracer := engine.tracer.record event, broadcast := engine.broadcast.send event }

/-- Hand an event to the subscribers only. -/
def announce (engine : Engine) (event : Event) : Engine :=
  { engine with broadcast := engine.broadcast.send event }

/-- Events change nothing about how runs are executed. -/
theorem orchestrator_publishAll (events : List Event) (engine : Engine) :
    (events.foldl publish engine).orchestrator = engine.orchestrator := by
  induction events generalizing engine with
  | nil => rfl
  | cons event rest ih => exact ih (engine.publish event)

/-- Execute a canvas, and hand its events to the observers one by one. -/
def run (engine : Engine) (draws : Draws) (canvasId : String) (graph : Graph) (input : Record) :
    Execution × Engine :=
  let execution := engine.orchestrator.execute draws canvasId graph input
  (execution, execution.events.foldl publish engine)

/-- Execute a canvas with an extra observer, of any kind, that every event is emitted to after the
observers of all runs got it. -/
def runWithSink {σ : Type} (engine : Engine) (emit : σ → Event → σ) (sink : σ) (draws : Draws)
    (canvasId : String) (graph : Graph) (input : Record) : Execution × Engine × σ :=
  let execution := engine.orchestrator.execute draws canvasId graph input
  (execution, execution.events.foldl
    (fun observers event => (observers.1.publish event, emit observers.2 event)) (engine, sink))

end Engine

end Canvas
