import Canvas.Executor

/-!
# Executor registries

A registry holds at most one executor for each node type. A later registration replaces an earlier
one.
-/

namespace Canvas

/-- The executors at hand, latest registration first. -/
structure Registry where
  registrations : List Executor

/-- A reason why a registry is refused. -/
inductive RegistryError where
  | incomplete (missing : List NodeType)
  deriving DecidableEq

namespace RegistryError

/-- The wording of an error. -/
def message : RegistryError → String
  | incomplete missing =>
    "Executor registry is missing node types: " ++ ", ".intercalate (missing.map NodeType.name)

end RegistryError

namespace Registry

/-- The registry without executors. -/
def empty : Registry := ⟨[]⟩

/-- Register an executor for its type. -/
def register (registry : Registry) (executor : Executor) : Registry :=
  ⟨executor :: registry.registrations.filter (·.type ≠ executor.type)⟩

/-- Register several executors, one after the other. -/
def registerAll (registry : Registry) (executors : List Executor) : Registry :=
  executors.foldl register registry

/-- The executor for a type. -/
def find? (registry : Registry) (type : NodeType) : Option Executor :=
  registry.registrations.find? (·.type = type)

@[simp] theorem find?_empty (type : NodeType) : empty.find? type = none := rfl

@[simp] theorem find?_register (registry : Registry) (executor : Executor) (type : NodeType) :
    (registry.register executor).find? type =
      if executor.type = type then some executor else registry.find? type := by
  by_cases h : executor.type = type
  · simp [register, find?, h]
  · simp only [register, find?, List.find?_cons, h, decide_false, if_false]
    rw [List.find?_filter]
    congr 1
    funext other
    by_cases ho : other.type = type
    · simp [ho, Ne.symm h]
    · simp [ho]

/-- Whether a type has an executor. -/
def contains (registry : Registry) (type : NodeType) : Bool := (registry.find? type).isSome

/-- The types that have an executor, in the order of all types. -/
def types (registry : Registry) : List NodeType := NodeType.all.filter registry.contains

/-- The types that have no executor, in the order of all types. -/
def missingTypes (registry : Registry) : List NodeType :=
  NodeType.all.filter (!registry.contains ·)

/-- Refuse a registry in which a type has no executor. -/
def ensureComplete (registry : Registry) : Except RegistryError Unit :=
  match registry.missingTypes with
  | [] => .ok ()
  | missing => .error (.incomplete missing)

/-- The description of the executor for a type. -/
def description? (registry : Registry) (type : NodeType) : Option String :=
  (registry.find? type).map (·.description)

/-- A registry that echoes for every type. -/
def echoing : Registry := empty.registerAll (NodeType.all.map Executor.echo)

end Registry

end Canvas
