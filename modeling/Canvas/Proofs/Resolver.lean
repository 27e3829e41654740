import Canvas.Proofs.Lookup
import Canvas.Resolver
import Mathlib.Data.List.Basic

/-!
# Where the fields of an input come from

A field of an input is written by the one binding that is named after it, from the first of its
sources that has a supplier. So two collections of outputs give the same input exactly if every
binding finds the same value in both, and outputs that supply nothing make no difference.
-/

namespace Canvas

namespace Outputs

variable {outputs : Outputs} {source : FieldSource}

/-- The outputs that satisfy a condition. -/
def restrict (outputs : Outputs) (keep : Completed → Prop) [DecidablePred keep] : Outputs :=
  ⟨outputs.entries.filter fun completed => keep completed⟩

theorem mem_restrict {keep : Completed → Prop} [DecidablePred keep] {completed : Completed} :
    completed ∈ (outputs.restrict keep).entries ↔ completed ∈ outputs.entries ∧ keep completed := by
  simp [restrict]

/-- The output from which a field is taken: the first one preferred that has it. -/
def supplier? (outputs : Outputs) (source : FieldSource) : Option Completed :=
  (outputs.preferred source.type).find? fun completed => completed.output.contains source.field

theorem mem_preferred {type : NodeType} {completed : Completed} :
    completed ∈ outputs.preferred type ↔ completed ∈ outputs.entries ∧ completed.type = type := by
  unfold preferred
  split
  · simp
  · simp

theorem find?_of_mem (distinct : (outputs.entries.map (·.nodeId)).Nodup) {completed : Completed}
    (h : completed ∈ outputs.entries) :
    outputs.find? completed.nodeId = some completed.output := by
  rw [find?, (find?_key_eq_some_iff distinct).2 ⟨h, rfl⟩]
  rfl

theorem mem_of_supplier? {completed : Completed} (h : outputs.supplier? source = some completed) :
    completed ∈ outputs.entries ∧ completed.type = source.type :=
  mem_preferred.1 (List.mem_of_find?_eq_some h)

theorem field?_eq_some_iff {value : Json} :
    outputs.field? source = some value ↔
      ∃ completed, outputs.supplier? source = some completed ∧
        completed.output.find? source.field = some value := by
  unfold field? supplier?
  induction outputs.preferred source.type with
  | nil => simp
  | cons first rest ih =>
      cases found : first.output.find? source.field with
      | some other => simp [Dict.contains, found]
      | none => simpa [Dict.contains, found] using ih

theorem field?_eq_none_iff :
    outputs.field? source = none ↔ ∀ completed ∈ outputs.entries, completed.type = source.type →
      completed.output.find? source.field = none := by
  simp only [field?, List.findSome?_eq_none_iff, mem_preferred, and_imp]

theorem field?_empty (source : FieldSource) : empty.field? source = none :=
  field?_eq_none_iff.2 fun _ stored => absurd stored List.not_mem_nil

theorem preferred_restrict (keep : Completed → Prop) [DecidablePred keep] (type : NodeType) :
    (outputs.restrict keep).preferred type =
      (outputs.preferred type).filter fun completed => keep completed := by
  have matching : (outputs.restrict keep).entries.filter (·.type = type) =
      (outputs.entries.filter (·.type = type)).filter fun completed => keep completed := by
    simp only [restrict, List.filter_filter, Bool.and_comm]
  unfold preferred
  rw [matching]
  split
  · rfl
  · exact List.filter_reverse.symm

/-- A field is the same without outputs that do not supply it. -/
theorem field?_restrict {keep : Completed → Prop} [DecidablePred keep]
    (kept : ∀ completed, outputs.supplier? source = some completed → keep completed) :
    (outputs.restrict keep).field? source = outputs.field? source := by
  unfold supplier? at kept
  rw [field?, preferred_restrict, field?]
  generalize outputs.preferred source.type = preferred at kept
  induction preferred with
  | nil => rfl
  | cons first rest ih =>
      cases found : first.output.find? source.field with
      | some value =>
          have supplies : keep first := kept first (by simp [Dict.contains, found])
          simp [supplies, found]
      | none =>
          have later := ih fun completed supplied =>
            kept completed (by simpa [Dict.contains, found] using supplied)
          by_cases supplies : keep first
          · simpa [supplies, found] using later
          · simpa [supplies, found] using later

end Outputs

namespace Binding

variable {binding : Binding} {outputs others : Outputs} {runInput : Record}

theorem value?_congr
    (h : ∀ source ∈ binding.sources, outputs.field? source = others.field? source) :
    binding.value? outputs runInput = binding.value? others runInput := by
  rw [value?, value?, findSome?_congr h]

/-- Where the input of a run is empty, a value is that of a source. -/
theorem value?_empty (binding : Binding) (outputs : Outputs) :
    binding.value? outputs Dict.empty = binding.sources.findSome? outputs.field? := by
  have unasked : binding.fallback.bind (Dict.empty : Record).find? = none := by
    cases binding.fallback with
    | none => rfl
    | some field => rfl
  rw [value?, unasked, Option.orElse_eq_orElse, Option.orElse_eq_or, Option.or_none]

/-- Where no step has completed, a value is that of the fallback. -/
theorem value?_outputs_empty (binding : Binding) (runInput : Record) :
    binding.value? Outputs.empty runInput = binding.fallback.bind runInput.find? := by
  have unsupplied : binding.sources.findSome? Outputs.empty.field? = none :=
    List.findSome?_eq_none_iff.2 fun source _ => Outputs.field?_empty source
  rw [value?, unsupplied]
  rfl

/-- A field that some output can supply is taken from an output, whatever the input of the run. -/
theorem exists_value?_of_source {source : FieldSource} {completed : Completed}
    (drawn : source ∈ binding.sources) (stored : completed ∈ outputs.entries)
    (type : completed.type = source.type) (has : completed.output.contains source.field = true) :
    ∃ value, (∀ runInput, binding.value? outputs runInput = some value) ∧
      ∃ other ∈ binding.sources, ∃ supplier ∈ outputs.entries, supplier.type = other.type ∧
        supplier.output.find? other.field = some value := by
  have supplied : binding.sources.findSome? outputs.field? ≠ none := by
    intro unsupplied
    have lacks := Outputs.field?_eq_none_iff.1
      (List.findSome?_eq_none_iff.1 unsupplied source drawn) completed stored type
    rw [Dict.contains, lacks] at has
    contradiction
  obtain ⟨value, first⟩ := Option.ne_none_iff_exists'.1 supplied
  obtain ⟨other, hother, found⟩ := List.exists_of_findSome?_eq_some first
  obtain ⟨supplier, supplies, output⟩ := Outputs.field?_eq_some_iff.1 found
  obtain ⟨kept, same⟩ := Outputs.mem_of_supplier? supplies
  refine ⟨value, fun runInput => ?_, other, hother, supplier, kept, same, output⟩
  rw [value?, first]
  rfl

theorem find?_apply (binding : Binding) (outputs : Outputs) (runInput input : Record)
    (key : String) :
    (binding.apply outputs runInput input).find? key =
      if binding.field = key then binding.value? outputs runInput <|> input.find? key
      else input.find? key := by
  unfold apply
  cases binding.value? outputs runInput with
  | none => simp
  | some value => simp

/-- Of bindings to different fields the one to a field alone decides what it is. -/
theorem find?_foldl_apply {bindings : List Binding} (distinct : (bindings.map (·.field)).Nodup)
    (input : Record) (key : String) :
    (bindings.foldl (fun input binding => binding.apply outputs runInput input) input).find? key =
      ((bindings.find? (·.field = key)).bind (·.value? outputs runInput) <|> input.find? key) := by
  induction bindings generalizing input with
  | nil => rfl
  | cons first rest ih =>
      rw [List.map_cons, List.nodup_cons] at distinct
      rw [List.foldl_cons, ih distinct.2, find?_apply]
      by_cases hkey : first.field = key
      · have alone : rest.find? (·.field = key) = none := by
          refine List.find?_eq_none.2 fun other hother same => ?_
          refine distinct.1 (List.mem_map.2 ⟨other, hother, ?_⟩)
          exact (of_decide_eq_true same).trans hkey.symm
        simp [hkey, alone]
      · simp [hkey]

end Binding

namespace Policy

/-- The bindings of a policy, if it has any. -/
def toBindings : Policy → List Binding
  | passthrough => []
  | bindings all => all

/-- The output fields from which a policy draws. -/
def sources (policy : Policy) : List FieldSource := policy.toBindings.flatMap (·.sources)

/-- The field of the input of a run that stands under a key where no step has completed. -/
def passes? : Policy → String → Option String
  | passthrough, key => some key
  | bindings all, key => (all.find? (·.field = key)).bind (·.fallback)

end Policy

namespace Resolver

variable {resolver : Resolver} {type : NodeType} {outputs others : Outputs} {runInput : Record}

/-- The input has the value of each binding in the field that is bound. -/
theorem find?_resolve {binding : Binding}
    (distinct : ((resolver.policy type).toBindings.map (·.field)).Nodup)
    (bound : binding ∈ (resolver.policy type).toBindings) :
    (resolver.resolve type outputs runInput).find? binding.field =
      binding.value? outputs runInput := by
  unfold resolve
  cases policy : resolver.policy type with
  | passthrough =>
      rw [policy] at bound
      cases bound
  | bindings bindings =>
      rw [policy] at distinct bound
      change (bindings.map (·.field)).Nodup at distinct
      change binding ∈ bindings at bound
      change Dict.find? (bindings.foldl _ _) _ = _
      rw [Binding.find?_foldl_apply distinct, (find?_key_eq_some_iff distinct).2 ⟨bound, rfl⟩]
      simp

/-- Two collections of outputs give the same input exactly if every binding finds the same. -/
theorem resolve_eq_iff (distinct : ((resolver.policy type).toBindings.map (·.field)).Nodup) :
    resolver.resolve type outputs runInput = resolver.resolve type others runInput ↔
      ∀ binding ∈ (resolver.policy type).toBindings,
        binding.value? outputs runInput = binding.value? others runInput := by
  constructor
  · intro same binding bound
    rw [← find?_resolve distinct bound, same, find?_resolve distinct bound]
  · intro same
    unfold resolve
    cases policy : resolver.policy type with
    | passthrough => rfl
    | bindings bindings =>
        rw [policy] at same
        refine List.foldl_ext _ _ _ fun input binding bound => ?_
        rw [Binding.apply, Binding.apply, same binding bound]

/-- Outputs that supply no field of an input make no difference to it. -/
theorem resolve_restrict {keep : Completed → Prop} [DecidablePred keep]
    (distinct : ((resolver.policy type).toBindings.map (·.field)).Nodup)
    (kept : ∀ source ∈ (resolver.policy type).sources, ∀ completed,
      outputs.supplier? source = some completed → keep completed) :
    resolver.resolve type (outputs.restrict keep) runInput =
      resolver.resolve type outputs runInput := by
  refine (resolve_eq_iff distinct).2 fun binding bound =>
    Binding.value?_congr fun source drawn => ?_
  exact Outputs.field?_restrict (kept source (List.mem_flatMap.2 ⟨binding, bound, drawn⟩))

/-- The usual policies bind each field once. -/
theorem nodup_fields_standard (type : NodeType) :
    ((standard.policy type).toBindings.map (·.field)).Nodup := by
  cases type <;> decide

theorem find?_resolve_outputs_empty
    (distinct : ((resolver.policy type).toBindings.map (·.field)).Nodup) (key : String) :
    (resolver.resolve type Outputs.empty runInput).find? key =
      ((resolver.policy type).passes? key).bind runInput.find? := by
  unfold resolve
  cases policy : resolver.policy type with
  | passthrough => rfl
  | bindings all =>
      rw [policy] at distinct
      change (all.map (·.field)).Nodup at distinct
      change Dict.find? (all.foldl _ _) key = ((all.find? _).bind _).bind _
      rw [Binding.find?_foldl_apply distinct]
      cases all.find? (·.field = key) with
      | none => simp
      | some binding => simp [Binding.value?_outputs_empty]

/-- Whether steps that pass on what they are given make no difference: a field that is taken from
the output of a type stands there for the same field of the input of the run as the fallback, or is
missing. -/
structure Transparent (resolver : Resolver) : Prop where
  distinct : ∀ type, ((resolver.policy type).toBindings.map (·.field)).Nodup
  settled : ∀ type, ∀ binding ∈ (resolver.policy type).toBindings, ∀ source ∈ binding.sources,
    (resolver.policy source.type).passes? source.field = none ∨
      (resolver.policy source.type).passes? source.field = binding.fallback

/-- If every output is what its type is given where no step has completed, then so is the next
input. -/
theorem Transparent.resolve_eq (h : resolver.Transparent)
    (passed : ∀ completed ∈ outputs.entries,
      completed.output = resolver.resolve completed.type Outputs.empty runInput)
    (type : NodeType) :
    resolver.resolve type outputs runInput = resolver.resolve type Outputs.empty runInput := by
  refine (resolve_eq_iff (h.distinct type)).2 fun binding bound => ?_
  rw [Binding.value?_outputs_empty, Binding.value?]
  cases supplied : binding.sources.findSome? outputs.field? with
  | none => rfl
  | some value =>
      obtain ⟨source, drawn, found⟩ := List.exists_of_findSome?_eq_some supplied
      obtain ⟨completed, supplies, output⟩ := Outputs.field?_eq_some_iff.1 found
      obtain ⟨stored, same⟩ := Outputs.mem_of_supplier? supplies
      rw [passed completed stored, same, find?_resolve_outputs_empty (h.distinct _)] at output
      rcases h.settled type binding bound source drawn with missing | fallback
      · rw [missing] at output
        contradiction
      · rw [← fallback, output]
        rfl

theorem transparent_standard : standard.Transparent := by
  refine ⟨nodup_fields_standard, fun type => ?_⟩
  cases type
  all_goals decide

end Resolver

end Canvas
