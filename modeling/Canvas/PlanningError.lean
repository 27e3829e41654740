import Canvas.Issue

/-!
# Planning errors

The reasons why a canvas has no execution order or no plan.
-/

namespace Canvas

/-- A reason why a canvas cannot be planned. -/
inductive PlanningError where
  | cycleDetected (ordered total : Nat)
  | duplicateNode (nodeId : String)
  | unknownNode (edgeId nodeId : String)
  | invalidGraph (issues : List Issue)
  deriving DecidableEq

namespace PlanningError

/-- The wording of an error. -/
def message : PlanningError → String
  | cycleDetected ordered total =>
    "Cyclic dependency detected: ordered " ++ toString ordered ++ " of " ++ toString total
      ++ " nodes"
  | duplicateNode nodeId => "Duplicate node id: " ++ nodeId
  | unknownNode edgeId nodeId => "Edge " ++ edgeId ++ " references unknown node: " ++ nodeId
  | invalidGraph issues => "Invalid graph: " ++ "; ".intercalate (issues.map Issue.text)

end PlanningError

end Canvas
