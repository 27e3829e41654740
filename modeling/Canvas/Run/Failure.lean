import Canvas.Executor
import Canvas.PlanningError

/-!
# Failures of runs

The reasons why a run ends in the failed state, and their wording. A failure may wrap the error that
caused it.
-/

namespace Canvas

/-- A reason why a run failed. -/
inductive RunError where
  | planning (cause : PlanningError)
  | unknownStepType (nodeId : String) (type : NodeType)
  | stepFailed (nodeId : String) (cause : StepError)
  deriving DecidableEq

namespace RunError

/-- The wording of an error. -/
def message : RunError → String
  | planning cause => "Planning failed: " ++ cause.message
  | unknownStepType nodeId type =>
    "No executor registered for node type '" ++ type.name ++ "' (node " ++ nodeId ++ ")"
  | stepFailed nodeId cause => "Step " ++ nodeId ++ " failed: " ++ cause.message

/-- The wording of the error that caused it, if there is one. -/
def cause? : RunError → Option String
  | planning cause => some cause.message
  | unknownStepType .. => none
  | stepFailed _ cause => some cause.message

/-- The wording under which the failing step records the error: what its executor said, or that
there is no executor. -/
def stepMessage : RunError → String
  | stepFailed _ cause => cause.message
  | error => error.message

end RunError

end Canvas
