import Canvas.NodeType

/-!
# Input resolution

The input of a step is put together from the outputs of the steps completed before it and from the
input of the run. Which fields it gets depends on the node type alone: a resolver holds a policy for
each type.
-/

namespace Canvas

/-- An output field of a node type, from which an input field may be filled. -/
structure FieldSource where
  type : NodeType
  field : String
  deriving DecidableEq

/-- How one input field is filled: from the first source that yields a value, else from a field of
the input of the run, else not at all. -/
structure Binding where
  field : String
  sources : List FieldSource
  fallback : Option String
  deriving DecidableEq

/-- How the input of a node type is put together. -/
inductive Policy where
  | passthrough
  | bindings (bindings : List Binding)
  deriving DecidableEq

/-- The output of a completed step. -/
structure Completed where
  nodeId : String
  type : NodeType
  output : Record

/-- The outputs of the steps completed so far, oldest first. -/
structure Outputs where
  entries : List Completed

namespace Outputs

/-- No step is completed. -/
def empty : Outputs := ⟨[]⟩

/-- Add the output of a step that has just completed. -/
def insert (outputs : Outputs) (nodeId : String) (type : NodeType) (output : Record) : Outputs :=
  ⟨outputs.entries ++ [⟨nodeId, type, output⟩]⟩

/-- The number of completed steps. -/
def size (outputs : Outputs) : Nat := outputs.entries.length

/-- The output of a node. -/
def find? (outputs : Outputs) (nodeId : String) : Option Record :=
  (outputs.entries.find? (·.nodeId = nodeId)).map (·.output)

/-- The outputs of a node type in the order in which they are preferred. Of entry types the oldest
comes first, since only the first entry node of a canvas counts; of other types the newest. -/
def preferred (outputs : Outputs) (type : NodeType) : List Completed :=
  let matching := outputs.entries.filter (·.type = type)
  if type.isEntry then matching else matching.reverse

/-- A field of the outputs of a node type: the first one preferred that has it. -/
def field? (outputs : Outputs) (source : FieldSource) : Option Json :=
  (outputs.preferred source.type).findSome? fun completed => completed.output.find? source.field

/-- The newest output of a terminal node, else the newest output. -/
def final? (outputs : Outputs) : Option Record :=
  (outputs.entries.reverse.find? (·.type.isTerminal) <|> outputs.entries.getLast?).map (·.output)

end Outputs

namespace Binding

/-- The value of the field, if there is one. -/
def value? (binding : Binding) (outputs : Outputs) (runInput : Record) : Option Json :=
  binding.sources.findSome? outputs.field? <|> binding.fallback.bind runInput.find?

/-- Write the value of the field, if there is one. -/
def apply (binding : Binding) (outputs : Outputs) (runInput input : Record) : Record :=
  match binding.value? outputs runInput with
  | some value => input.insert binding.field value
  | none => input

end Binding

/-- A policy for each node type. -/
structure Resolver where
  policy : NodeType → Policy

namespace Resolver

/-- The resolver that hands the input of the run to every step. -/
def empty : Resolver := ⟨fun _ => .passthrough⟩

/-- Set the policy of a type. -/
def withPolicy (resolver : Resolver) (type : NodeType) (policy : Policy) : Resolver :=
  ⟨fun t => if t = type then policy else resolver.policy t⟩

/-- Put the input of a step together. -/
def resolve (resolver : Resolver) (type : NodeType) (outputs : Outputs) (runInput : Record) :
    Record :=
  match resolver.policy type with
  | .passthrough => runInput
  | .bindings bindings =>
    bindings.foldl (fun input binding => binding.apply outputs runInput input) Dict.empty

/-- The query of the user: as the entry node passed it on, else as it was asked. -/
def queryBinding : Binding := ⟨"query", [⟨.query, "query"⟩], some "query"⟩

/-- Documents from the first of some node types that has any, else as they were given. -/
def documentsBinding (types : List NodeType) : Binding :=
  ⟨"documents", types.map fun type => ⟨type, "documents"⟩, some "documents"⟩

/-- The usual policy of a node type. -/
def standardPolicy : NodeType → Policy
  | .query => .passthrough
  | .hyde => .bindings [queryBinding]
  | .embed => .bindings [⟨"text", [⟨.hyde, "document"⟩, ⟨.query, "query"⟩], some "query"⟩]
  | .retrieve =>
    .bindings [⟨"embedding", [⟨.embed, "embedding"⟩], some "embedding"⟩, queryBinding]
  | .rerank => .bindings [queryBinding, documentsBinding [.retrieve]]
  | .judge => .bindings [queryBinding, documentsBinding [.rerank, .retrieve]]
  | .generate | .agent =>
    .bindings [queryBinding, documentsBinding [.judge, .rerank, .retrieve]]

/-- The resolver with the usual policies. -/
def standard : Resolver := ⟨standardPolicy⟩

end Resolver

end Canvas
