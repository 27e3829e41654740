import Canvas.Json.Shape
import Canvas.Text.Digit
import Canvas.Text.Space

/-!
# Settings

The settings of an engine, as they stand in JSON or in environment variables. What is not set, or
not understood in the environment, keeps its default.
-/

namespace Canvas

/-- How much an engine keeps, and whether it insists on an executor for every node type. -/
structure Settings where
  eventBufferSize : Nat
  tracerCapacity : Nat
  requireCompleteRegistry : Bool
  deriving DecidableEq

namespace Settings

/-- The settings of an engine for which nothing is set. -/
def standard : Settings := ⟨1000, 100, false⟩

/-- Settings in JSON. Every one may be left out. -/
def shape : Json.Shape Settings where
  name := "RuntimeConfig"
  fields :=
    .cons (.defaulted "event_buffer_size" Json.size (fun n => .int n) standard.eventBufferSize) <|
    .cons (.defaulted "tracer_capacity" Json.size (fun n => .int n) standard.tracerCapacity) <|
    .cons (.defaulted "require_complete_registry" Json.boolean .bool
      standard.requireCompleteRegistry) .nil
  make := fun (buffer, capacity, complete, _) => ⟨buffer, capacity, complete⟩
  split := fun s => (s.eventBufferSize, s.tracerCapacity, s.requireCompleteRegistry, ())

/-- A number in the environment: digits, with an optional plus sign, below `2 ^ 64`. -/
def number? (text : String) : Option Nat :=
  let digits := match Text.trim text.toList with
    | '+' :: rest => rest
    | cs => cs
  if digits.isEmpty ∨ ¬ digits.all Char.isDigit then none
  else
    let n := Text.ofDigits digits
    if n < Nat.pow 2 64 then some n else none

/-- A truth value in the environment. -/
def boolean? (text : String) : Option Bool :=
  match String.ofList (Text.trim text.toList) with
  | "true" => some true
  | "false" => some false
  | _ => none

/-- The variable that sets the size of the event buffer. -/
def bufferVariable : String := "CANVAS_EVENT_BUFFER"

/-- The variable that sets the capacity of the tracer. -/
def capacityVariable : String := "CANVAS_TRACER_CAPACITY"

/-- The variable that asks for a complete registry. -/
def completeVariable : String := "CANVAS_REQUIRE_COMPLETE_REGISTRY"

/-- Every variable on which settings depend. -/
def variableNames : List String := [bufferVariable, capacityVariable, completeVariable]

/-- The settings that the environment asks for. -/
def ofEnvironment (lookup : String → Option String) : Settings where
  eventBufferSize := ((lookup bufferVariable).bind number?).getD standard.eventBufferSize
  tracerCapacity := ((lookup capacityVariable).bind number?).getD standard.tracerCapacity
  requireCompleteRegistry :=
    ((lookup completeVariable).bind boolean?).getD standard.requireCompleteRegistry

end Settings

end Canvas
