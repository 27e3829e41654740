import Canvas.NodeType

/-!
# Issues

An issue is one finding about a canvas: a code for programs, a message for people, and where it was
found. Errors block a run, warnings do not.
-/

namespace Canvas

/-- What kind of finding it is. -/
inductive IssueCode where
  | duplicateNodeId
  | missingEntryNode
  | multipleEntryNodes
  | missingTerminalNode
  | invalidSource
  | invalidTarget
  | invalidConnection
  | cycleDetected
  | noIncomingEdges
  | noOutgoingEdges
  | missingAncestor
  deriving DecidableEq, Inhabited

namespace IssueCode

/-- Every code. -/
def all : List IssueCode :=
  [duplicateNodeId, missingEntryNode, multipleEntryNodes, missingTerminalNode, invalidSource,
    invalidTarget, invalidConnection, cycleDetected, noIncomingEdges, noOutgoingEdges,
    missingAncestor]

/-- The written name. -/
def name : IssueCode → String
  | duplicateNodeId => "DUPLICATE_NODE_ID"
  | missingEntryNode => "MISSING_ENTRY_NODE"
  | multipleEntryNodes => "MULTIPLE_ENTRY_NODES"
  | missingTerminalNode => "MISSING_TERMINAL_NODE"
  | invalidSource => "INVALID_SOURCE"
  | invalidTarget => "INVALID_TARGET"
  | invalidConnection => "INVALID_CONNECTION"
  | cycleDetected => "CYCLE_DETECTED"
  | noIncomingEdges => "NO_INCOMING_EDGES"
  | noOutgoingEdges => "NO_OUTGOING_EDGES"
  | missingAncestor => "MISSING_UPSTREAM"

instance : ToString IssueCode := ⟨name⟩

/-- Decode a code from its name. -/
def decode : Json.Decoder IssueCode := Json.choice (all.map fun code => (code.name, code))

/-- Encode a code as its name. -/
def encode (code : IssueCode) : Json := .str code.name

end IssueCode

/-- A finding, with the node and the edge at which it was made. -/
structure Issue where
  code : IssueCode
  message : String
  nodeId : Option String
  edgeId : Option String
  deriving DecidableEq

namespace Issue

/-- A finding about the canvas as a whole. -/
def general (code : IssueCode) (message : String) : Issue := ⟨code, message, none, none⟩

/-- A finding at a node. -/
def atNode (code : IssueCode) (message nodeId : String) : Issue :=
  ⟨code, message, some nodeId, none⟩

/-- A finding at an edge. -/
def atEdge (code : IssueCode) (message edgeId : String) : Issue :=
  ⟨code, message, none, some edgeId⟩

/-- The text of a finding: its code in brackets and its message. -/
def text (issue : Issue) : String := "[" ++ issue.code.name ++ "] " ++ issue.message

/-- A finding in JSON. Places that it does not name are left out. -/
def shape : Json.Shape Issue where
  name := "ValidationIssue"
  fields :=
    .cons (.required "code" IssueCode.decode IssueCode.encode) <|
    .cons (.string "message") <|
    .cons (.omittable "nodeId" Json.string .str) <|
    .cons (.omittable "edgeId" Json.string .str) .nil
  make := fun (code, message, nodeId, edgeId, _) => ⟨code, message, nodeId, edgeId⟩
  split := fun issue => (issue.code, issue.message, issue.nodeId, issue.edgeId, ())

end Issue

/-- All findings about a canvas. -/
structure Findings where
  valid : Bool
  errors : List Issue
  warnings : List Issue
  deriving DecidableEq

namespace Findings

/-- A canvas is valid if it has no errors. -/
def ofIssues (errors warnings : List Issue) : Findings := ⟨errors.isEmpty, errors, warnings⟩

/-- Whether an error has a code. -/
def hasError (findings : Findings) (code : IssueCode) : Bool := findings.errors.any (·.code = code)

/-- Whether a warning has a code. -/
def hasWarning (findings : Findings) (code : IssueCode) : Bool :=
  findings.warnings.any (·.code = code)

/-- Findings in JSON. -/
def shape : Json.Shape Findings where
  name := "ValidationResult"
  fields :=
    .cons (.required "valid" Json.boolean .bool) <|
    .cons (.required "errors" (Json.list Issue.shape.decode) fun issues =>
      .arr (issues.map Issue.shape.encode)) <|
    .cons (.required "warnings" (Json.list Issue.shape.decode) fun issues =>
      .arr (issues.map Issue.shape.encode)) .nil
  make := fun (valid, errors, warnings, _) => ⟨valid, errors, warnings⟩
  split := fun findings => (findings.valid, findings.errors, findings.warnings, ())

end Findings

end Canvas
