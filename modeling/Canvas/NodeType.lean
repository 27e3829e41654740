import Canvas.Json.Shape

/-!
# Node types

The processing kinds that a node of a canvas can have, which of them a run starts and ends with, and
which may feed which.
-/

namespace Canvas

/-- A processing kind. -/
inductive NodeType where
  | query
  | embed
  | retrieve
  | rerank
  | judge
  | generate
  | hyde
  | agent
  deriving DecidableEq, Inhabited

namespace NodeType

/-- Every node type, in the order in which they are listed to users. -/
def all : List NodeType := [query, embed, retrieve, rerank, judge, generate, hyde, agent]

@[simp] theorem mem_all (t : NodeType) : t ∈ all := by
  cases t <;> decide

/-- The written name. -/
def name : NodeType → String
  | query => "query"
  | embed => "embed"
  | retrieve => "retrieve"
  | rerank => "rerank"
  | judge => "judge"
  | generate => "generate"
  | hyde => "hyde"
  | agent => "agent"

instance : ToString NodeType := ⟨name⟩

/-- The node type with a name. -/
def ofName? (s : String) : Option NodeType := all.find? (·.name = s)

/-- Entry nodes are seeded from the input of the run. -/
def isEntry : NodeType → Bool
  | query => true
  | _ => false

/-- Terminal nodes produce the output of a run. -/
def isTerminal : NodeType → Bool
  | generate | agent => true
  | _ => false

/-- The node types that a node may feed directly. -/
def targets : NodeType → List NodeType
  | query => [embed, hyde, rerank, judge, generate, agent]
  | hyde => [embed, generate]
  | embed => [retrieve]
  | retrieve => [rerank, judge, generate, agent]
  | rerank => [judge, generate, agent]
  | judge => [generate, agent]
  | agent => [generate]
  | generate => []

/-- Whether a node of one type may feed a node of another. -/
def feeds (source target : NodeType) : Bool := source.targets.contains target

/-- The node type that is usually found among the ancestors. -/
def expectedAncestor : NodeType → Option NodeType
  | embed => some query
  | retrieve => some embed
  | rerank | judge => some retrieve
  | _ => none

/-- Decode a node type from its name. -/
def decode : Json.Decoder NodeType := Json.choice (all.map fun t => (t.name, t))

/-- Encode a node type as its name. -/
def encode (t : NodeType) : Json := .str t.name

/-- The node type of a node or step in JSON. -/
def field (label : String) : Json.Field NodeType := .required label decode encode

end NodeType

end Canvas
