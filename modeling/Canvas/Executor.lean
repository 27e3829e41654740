import Canvas.NodeType

/-!
# Executors

An executor does the work of one type of node: from an input and the configuration of the node it
produces an output or an error, after some time. Time is counted in milliseconds and passes as the
executor says.
-/

namespace Canvas

/-- A reason why a step failed. -/
inductive StepError where
  | missingInput (name : String)
  | invalidInput (field reason : String)
  | configuration (text : String)
  | executionFailed (text : String)
  deriving DecidableEq

namespace StepError

/-- The wording of an error. -/
def message : StepError → String
  | missingInput name => "Missing required input: " ++ name
  | invalidInput field reason => "Invalid input for '" ++ field ++ "': " ++ reason
  | configuration text => "Configuration error: " ++ text
  | executionFailed text => "Execution failed: " ++ text

end StepError

/-- What an executor is asked to do: the number of the step within its run, so that an executor may
answer differently each time, the resolved input, and the configuration of the node. -/
structure Invocation where
  index : Nat
  input : Record
  config : Record

/-- How an execution ended, and after how many milliseconds. -/
structure Completion where
  result : Except StepError Record
  elapsedMs : Nat

/-- Something that can execute the steps of one node type. -/
structure Executor where
  type : NodeType
  description : String
  execute : Invocation → Completion

namespace Executor

/-- An executor that returns its input, with the fields of the object under `emit` in the
configuration written over it. -/
def echo (type : NodeType) : Executor where
  type
  description := "Returns its resolved input plus any `emit` config fields"
  execute call :=
    match call.config.find? "emit" with
    | none => ⟨.ok call.input, 0⟩
    | some (.obj members) => ⟨.ok (call.input.insertAll members), 0⟩
    | some _ => ⟨.error (.configuration "`emit` must be an object"), 0⟩

/-- The delay of an executor whose configuration names none. -/
def defaultDelayMs : Nat := 1000

/-- The longest delay: thirty years of 365 days. The timer behind a delay does not reach further; it
ends a longer one after this time, as was observed for delays up to the greatest number of 64
bits. -/
def maxDelayMs : Nat := 30 * 365 * 24 * 60 * 60 * 1000

/-- The time after which a delay ends: what the configuration asks for, where only a natural number
counts, as far as the timer reaches. -/
def delayMs (config : Record) : Nat :=
  match config.find? "delay_ms" with
  | some (.int (.ofNat n)) => min n maxDelayMs
  | _ => defaultDelayMs

/-- An executor that returns its input after the number of milliseconds under `delay_ms`. -/
def delay (type : NodeType) : Executor where
  type
  description := "Delay execution for specified milliseconds"
  execute call := ⟨.ok call.input, delayMs call.config⟩

/-- End an execution at a limit. One that ends at the very moment of the limit is in time. -/
def Completion.limited (limitMs : Nat) (completion : Completion) : Completion :=
  if completion.elapsedMs ≤ limitMs then completion
  else ⟨.error (.executionFailed ("timed out after " ++ toString limitMs ++ "ms")), limitMs⟩

/-- The same executor with a limit to its time. -/
def withTimeout (limitMs : Nat) (inner : Executor) : Executor :=
  { inner with execute := fun call => Completion.limited limitMs (inner.execute call) }

end Executor

end Canvas
