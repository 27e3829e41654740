import Canvas.Proofs.Resolver

/-!
# Inputs while outputs come in

One more output, of a type that is not an entry type, is the newest of its type and comes first among
them. So a field of an input is taken from it exactly if a source that asks for it stands before the
one that supplied the field so far, or is that one. What an input has it never loses.

Nothing is assumed about the policies. A field may be bound more than once, and then the last binding
that finds a value decides.
-/

namespace Canvas

section Search

variable {α β : Type}

/-- The items up to the first one that satisfies a test; all, if none does. -/
def upToFirst (test : α → Bool) (items : List α) : List α :=
  match items.findIdx? test with
  | some i => items.take (i + 1)
  | none => items

theorem upToFirst_cons (test : α → Bool) (first : α) (rest : List α) :
    upToFirst test (first :: rest) =
      if test first then [first] else first :: upToFirst test rest := by
  unfold upToFirst
  rw [List.findIdx?_cons]
  by_cases found : test first = true
  · simp [found]
  · cases rest.findIdx? test with
    | none => simp [found]
    | some i => simp [found]

/-- Trying one search before another at each item finds something else only up to where the other
one succeeds. -/
theorem findSome?_orElse (f g : α → Option β) (items : List α) :
    items.findSome? (fun item => f item <|> g item) =
      ((upToFirst (fun item => (g item).isSome) items).findSome? f <|> items.findSome? g) := by
  induction items with
  | nil => rfl
  | cons first rest ih =>
      rw [upToFirst_cons, List.findSome?_cons, List.findSome?_cons]
      cases held : g first with
      | some value =>
          cases offered : f first with
          | some other => simp [offered]
          | none => simp [offered]
      | none =>
          cases offered : f first with
          | some other => simp [offered]
          | none => simpa [offered] using ih

end Search

/-- What an output has for a source, if it is of the type for which the source asks. -/
def Completed.offers? (completed : Completed) (source : FieldSource) : Option Json :=
  if source.type = completed.type then completed.output.find? source.field else none

variable {resolver : Resolver} {type : NodeType} {bindings : List Binding} {binding : Binding}
variable {outputs : Outputs} {further : Completed} {runInput : Record}

namespace Outputs

/-- The outputs and one more behind them. -/
def add (outputs : Outputs) (further : Completed) : Outputs :=
  outputs.insert further.nodeId further.type further.output

/-- The newest output of a type is the first that is preferred. -/
theorem preferred_add (later : further.type.isEntry = false) (type : NodeType) :
    (outputs.add further).preferred type =
      if type = further.type then further :: outputs.preferred type
      else outputs.preferred type := by
  unfold preferred add insert
  rw [List.filter_append]
  by_cases same : type = further.type
  · subst same
    simp [later]
  · simp [same, Ne.symm same]

theorem field?_add (later : further.type.isEntry = false) (source : FieldSource) :
    (outputs.add further).field? source = (further.offers? source <|> outputs.field? source) := by
  rw [field?, preferred_add later, Completed.offers?]
  by_cases same : source.type = further.type
  · rw [if_pos same, if_pos same, List.findSome?_cons]
    cases further.output.find? source.field with
    | none => rfl
    | some value => rfl
  · rw [if_neg same, if_neg same]
    rfl

end Outputs

namespace Binding

/-- The sources that stand no later than the one that supplies the value; all, if the value comes
from the fallback or is missing. -/
def contenders (binding : Binding) (outputs : Outputs) : List FieldSource :=
  upToFirst (fun source => (outputs.field? source).isSome) binding.sources

/-- One more output supplies the value if a source asks for it that is no later than the one that
supplied the value so far. -/
theorem value?_add (later : further.type.isEntry = false) (binding : Binding) (outputs : Outputs)
    (runInput : Record) :
    binding.value? (outputs.add further) runInput =
      ((binding.contenders outputs).findSome? further.offers? <|>
        binding.value? outputs runInput) := by
  have supplied : binding.sources.findSome? (outputs.add further).field? =
      ((binding.contenders outputs).findSome? further.offers? <|>
        binding.sources.findSome? outputs.field?) := by
    rw [funext (Outputs.field?_add later)]
    exact findSome?_orElse _ _ _
  rw [value?, value?, supplied]
  simp only [Option.orElse_eq_orElse, Option.orElse_eq_or, Option.or_assoc]

/-- Of the bindings to a field the last one that finds a value decides what it is. -/
theorem find?_foldl_apply_of_last (bindings : List Binding) (outputs : Outputs)
    (runInput input : Record) (key : String) :
    (bindings.foldl (fun input binding => binding.apply outputs runInput input) input).find? key =
      ((bindings.filter (·.field = key)).reverse.findSome? (·.value? outputs runInput) <|>
        input.find? key) := by
  induction bindings generalizing input with
  | nil => rfl
  | cons first rest ih =>
      rw [List.foldl_cons, ih, find?_apply]
      by_cases own : first.field = key
      · simp [own, List.findSome?_append, Option.or_assoc]
      · simp [own]

end Binding

namespace Resolver

theorem find?_resolve_of_last (policy : resolver.policy type = .bindings bindings)
    (outputs : Outputs) (runInput : Record) (key : String) :
    (resolver.resolve type outputs runInput).find? key =
      (bindings.filter (·.field = key)).reverse.findSome? (·.value? outputs runInput) := by
  rw [resolve, policy]
  refine (Binding.find?_foldl_apply_of_last bindings outputs runInput Dict.empty key).trans ?_
  simp

/-- An input has a field exactly if some binding to the field finds a value. -/
theorem contains_resolve_iff (policy : resolver.policy type = .bindings bindings) {key : String} :
    (resolver.resolve type outputs runInput).contains key = true ↔
      ∃ binding ∈ bindings, binding.field = key ∧
        (binding.value? outputs runInput).isSome = true := by
  rw [Dict.contains, find?_resolve_of_last policy, List.findSome?_isSome_iff]
  simp [and_assoc]

/-- One more output of a type that is not an entry type takes no field from an input. It replaces the
value of a binding if a source asks for it that is no later than the one that supplied the value, and
otherwise makes no difference to the binding. -/
theorem resolve_add (policy : resolver.policy type = .bindings bindings) (outputs : Outputs)
    (runInput : Record) (later : further.type.isEntry = false) :
    (∀ key, (resolver.resolve type outputs runInput).contains key = true →
      (resolver.resolve type (outputs.add further) runInput).contains key = true) ∧
    (∀ binding ∈ bindings, binding.value? (outputs.add further) runInput =
      ((binding.contenders outputs).findSome? further.offers? <|>
        binding.value? outputs runInput)) ∧
    ∀ stored key, (resolver.resolve type stored runInput).find? key =
      (bindings.filter (·.field = key)).reverse.findSome? (·.value? stored runInput) := by
  refine ⟨fun key has => ?_, fun binding _ => binding.value?_add later outputs runInput,
    fun stored key => find?_resolve_of_last policy stored runInput key⟩
  obtain ⟨binding, bound, field, found⟩ := (contains_resolve_iff policy).1 has
  refine (contains_resolve_iff policy).2 ⟨binding, bound, field, ?_⟩
  rw [binding.value?_add later]
  simp [found]

/-- Ranked documents are preferred to those that were searched for, even if they are null. The other
binding to the field finds nothing and leaves it as it is. -/
theorem resolve_ranked_null :
    let bindings : List Binding :=
      [⟨"documents", [⟨.rerank, "documents"⟩, ⟨.retrieve, "documents"⟩], some "documents"⟩,
        ⟨"documents", [⟨.judge, "documents"⟩], none⟩]
    let resolver : Resolver := empty.withPolicy .agent (.bindings bindings)
    let outputs : Outputs :=
      ⟨[⟨"search", .retrieve, Dict.empty.insert "documents" (.str "found")⟩]⟩
    let further : Completed := ⟨"rank", .rerank, Dict.empty.insert "documents" .null⟩
    (resolver.policy .agent = .bindings bindings ∧ further.type.isEntry = false) ∧
      (resolver.resolve .agent outputs Dict.empty).find? "documents" = some (.str "found") ∧
      (resolver.resolve .agent (outputs.add further) Dict.empty).contains "documents" = true ∧
      (resolver.resolve .agent (outputs.add further) Dict.empty).find? "documents" =
        some .null := by
  intro bindings resolver outputs further
  have policy : resolver.policy .agent = .bindings bindings := rfl
  have later : further.type.isEntry = false := rfl
  obtain ⟨keeps, -, last⟩ := resolve_add policy outputs Dict.empty later
  have before : (resolver.resolve .agent outputs Dict.empty).find? "documents" =
      some (.str "found") := by
    rw [last]
    rfl
  refine ⟨⟨policy, later⟩, before, keeps "documents" ?_, ?_⟩
  · rw [Dict.contains, before]
    rfl
  · rw [last]
    rfl

end Resolver

end Canvas
