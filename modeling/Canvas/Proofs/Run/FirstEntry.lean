import Canvas.Proofs.Resolver
import Canvas.Proofs.Run.Outputs

/-!
# Which entry node is heard

The outputs that a later step finds begin with those of the entry nodes, in the order in which the
nodes were drawn. The query of a run is that of the first entry node whose output has one. This is
the first entry node as long as its output has a query; if it has none, the others are heard.
-/

namespace Canvas

/-- The field under which an entry node passes a query on. -/
def FieldSource.query : FieldSource := ⟨.query, "query"⟩

namespace Outputs

variable {outputs : Outputs} {graph : Graph} {first : Node} {others : List Node} {field : String}

/-- The outputs without those of entry nodes other than one. -/
def hearing (outputs : Outputs) (entry : String) : Outputs :=
  outputs.restrict fun completed => completed.type = .query → completed.nodeId = entry

/-- Whether the outputs of the entry nodes are there, in the order of the nodes, and each node has
one output. -/
structure HasEntries (outputs : Outputs) (graph : Graph) : Prop where
  distinct : (outputs.entries.map (·.nodeId)).Nodup
  origins : (outputs.preferred .query).map Completed.origin =
    graph.entries.map fun node => (node.id, NodeType.query)

theorem HasEntries.nodeIds (h : outputs.HasEntries graph) :
    (outputs.preferred .query).map (·.nodeId) = graph.entries.map (·.id) := by
  have ids := congrArg (List.map Prod.fst) h.origins
  rwa [List.map_map, List.map_map] at ids

theorem HasEntries.find?_eq_some (h : outputs.HasEntries graph) {completed : Completed}
    (hc : completed ∈ outputs.preferred .query) :
    outputs.find? completed.nodeId = some completed.output :=
  find?_of_mem h.distinct (mem_preferred.1 hc).1

theorem HasEntries.exists_output (h : outputs.HasEntries graph) {node : Node}
    (hnode : node ∈ graph.entries) : ∃ output, outputs.find? node.id = some output := by
  have listed : node.id ∈ (outputs.preferred .query).map (·.nodeId) := by
    rw [h.nodeIds]
    exact List.mem_map_of_mem hnode
  obtain ⟨completed, hc, same⟩ := List.mem_map.1 listed
  exact ⟨completed.output, same ▸ h.find?_eq_some hc⟩

/-- What entry nodes pass on is what the first of them does that passes it on. -/
theorem HasEntries.field?_query (h : outputs.HasEntries graph) (field : String) :
    outputs.field? ⟨.query, field⟩ =
      graph.entries.findSome? fun node => (outputs.find? node.id).bind (·.find? field) := by
  let passed (id : String) : Option Json := (outputs.find? id).bind (·.find? field)
  calc
    outputs.field? ⟨.query, field⟩
      = (outputs.preferred .query).findSome? (fun completed => passed completed.nodeId) := by
        unfold field?
        refine findSome?_congr fun completed hc => ?_
        change _ = (outputs.find? completed.nodeId).bind _
        rw [h.find?_eq_some hc]
        rfl
    _ = ((outputs.preferred .query).map (·.nodeId)).findSome? passed := by
        rw [List.findSome?_map]
        rfl
    _ = graph.entries.findSome? (fun node => passed node.id) := by
        rw [h.nodeIds, List.findSome?_map]
        rfl

theorem field?_hearing_of_ne {entry : String} {source : FieldSource} (ne : source.type ≠ .query) :
    (outputs.hearing entry).field? source = outputs.field? source := by
  refine field?_restrict fun completed supplies query => absurd query ?_
  rw [(mem_of_supplier? supplies).2]
  exact ne

/-- If only the first entry node is heard, what entry nodes pass on is what it does. -/
theorem HasEntries.field?_hearing (h : outputs.HasEntries graph)
    (entries : graph.entries = first :: others) (field : String) :
    (outputs.hearing first.id).field? ⟨.query, field⟩ =
      (outputs.find? first.id).bind (·.find? field) := by
  have nodeIds := h.nodeIds
  have distinct : ((outputs.preferred .query).map (·.nodeId)).Nodup :=
    h.distinct.sublist (List.Sublist.map _ List.filter_sublist)
  rw [entries, List.map_cons] at nodeIds
  cases hp : outputs.preferred .query with
  | nil =>
      rw [hp] at nodeIds
      contradiction
  | cons completed rest =>
      rw [hp, List.map_cons] at nodeIds distinct
      have found := h.find?_eq_some (hp ▸ List.mem_cons_self)
      rw [(List.cons.inj nodeIds).1] at found distinct
      -- The output in front is that of the first entry node, and no other is of the same node.
      have unheard : rest.filter (fun other => decide (other.type = .query →
          other.nodeId = first.id)) = [] := by
        refine List.filter_eq_nil_iff.2 fun other ho heard => ?_
        have type : other.type = .query :=
          (mem_preferred.1 (hp ▸ List.mem_cons_of_mem _ ho)).2
        refine (List.nodup_cons.1 distinct).1 (List.mem_map.2 ⟨other, ho, ?_⟩)
        exact of_decide_eq_true heard type
      rw [field?, hearing, preferred_restrict, hp, found, List.filter_cons, unheard]
      simp [(List.cons.inj nodeIds).1]

end Outputs

namespace NodeType

/-- The binding through which a step of a type asks for the query. -/
def asking : NodeType → Binding
  | embed => ⟨"text", [⟨hyde, "document"⟩, .query], some "query"⟩
  | _ => Resolver.queryBinding

theorem asking_mem {type : NodeType} (later : type ≠ query) :
    type.asking ∈ (Resolver.standard.policy type).toBindings := by
  revert later
  cases type
  all_goals decide

/-- No other binding draws from entry nodes. -/
theorem eq_asking_or_ne_query (type : NodeType) :
    ∀ binding ∈ (Resolver.standard.policy type).toBindings,
      binding = type.asking ∨ ∀ source ∈ binding.sources, source.type ≠ query := by
  cases type
  all_goals decide

theorem value?_asking {type : NodeType} (h : type ≠ embed) (outputs : Outputs) (input : Record) :
    type.asking.value? outputs input =
      (outputs.field? .query <|> input.find? "query") := by
  have usual : type.asking = Resolver.queryBinding := by
    unfold asking
    split
    · contradiction
    · rfl
  rw [usual]
  simp [Binding.value?, Resolver.queryBinding, FieldSource.query]

theorem value?_asking_embed (outputs : Outputs) (input : Record) :
    embed.asking.value? outputs input =
      (outputs.field? ⟨hyde, "document"⟩ <|> outputs.field? .query <|> input.find? "query") := by
  cases document : outputs.field? ⟨hyde, "document"⟩ with
  | none => simp [Binding.value?, asking, document]
  | some value => simp [Binding.value?, asking, document]

end NodeType

/-- Taking one value for another that is there is no difference; nor is it if the other is not
there, or is what stands in for it. -/
theorem orElse_eq_iff {α : Type} {value other default : Option α}
    (implies : ∀ a, value = some a → other = some a) :
    (value <|> default) = (other <|> default) ↔
      value.isSome ∨ other = none ∨ other = default := by
  cases value with
  | some a => simp [implies a rfl]
  | none =>
      cases other with
      | none => simp
      | some b => simp [eq_comm]

namespace Resolver

variable {type : NodeType} {outputs : Outputs} {entry : String} {input : Record}

/-- Other entry nodes make a difference to an input exactly if they make one to its query. -/
theorem resolve_hearing_iff (later : type ≠ .query) :
    standard.resolve type (outputs.hearing entry) input = standard.resolve type outputs input ↔
      type.asking.value? (outputs.hearing entry) input = type.asking.value? outputs input := by
  rw [resolve_eq_iff (nodup_fields_standard type)]
  constructor
  · intro same
    exact same type.asking (NodeType.asking_mem later)
  · intro same binding bound
    rcases NodeType.eq_asking_or_ne_query type binding bound with rfl | ne
    · exact same
    · exact Binding.value?_congr fun source drawn => Outputs.field?_hearing_of_ne (ne source drawn)

end Resolver

namespace Orchestrator

variable {registry : Registry} {orchestrator : Orchestrator} {draws : Draws} {canvasId : String}
variable {graph : Graph} {input : Record} {plan : Plan} {execution : Execution} {i : Nat}
variable {step : PlanStep} {record : StepRecord}

/-- When a later step is dispatched all entry nodes have completed. -/
theorem hasEntries_outputsBefore (planned : graph.plan = .ok plan)
    (h : orchestrator.execute draws canvasId graph input = execution)
    (hstep : plan.steps[i]? = some step) (hrecord : execution.report.steps[i]? = some record)
    (later : step.nodeType ≠ .query) : (execution.outputsBefore i).HasEntries graph := by
  have origins := origins_outputsBefore planned h hrecord
  refine ⟨nodup_outputsBefore planned h hrecord, ?_⟩
  let ofQuery (origin : String × NodeType) : Bool := origin.2 = .query
  have entry : ∀ node ∈ graph.entries, (graph.stepOf node).origin = (node.id, .query) :=
    fun node hnode => congrArg _ (NodeType.isEntry_iff.1 (List.mem_filter.1 hnode).2)
  calc
    ((execution.outputsBefore i).preferred .query).map Completed.origin
      = ((execution.outputsBefore i).entries.map Completed.origin).filter ofQuery := by
        rw [List.filter_map]
        rfl
    _ = ((plan.steps.take i).filter (·.nodeType = .query)).map PlanStep.origin := by
        rw [origins, List.filter_map]
        rfl
    _ = graph.entries.map (fun node => (graph.stepOf node).origin) := by
        rw [Graph.filter_entry_take_steps planned hstep later, List.map_map]
        rfl
    _ = graph.entries.map (fun node => (node.id, .query)) := List.map_congr_left entry

/-- The query that a later step is given is that of the first entry node, in the order of the nodes,
whose output has one. So the outputs of the other entry nodes make no difference to its input exactly
if the output of the first has a query, or none has, or it is what was asked anyway, or a step that
embeds is given a document instead. -/
theorem hears_first_entry_iff {first : Node} {others : List Node} (planned : graph.plan = .ok plan)
    (entries : graph.entries = first :: others)
    (h : execute ⟨registry, .standard⟩ draws canvasId graph input = execution)
    (hstep : plan.steps[i]? = some step) (hrecord : execution.report.steps[i]? = some record)
    (later : step.nodeType ≠ .query) :
    ∃ output, (execution.outputsBefore i).find? first.id = some output ∧
      (execution.outputsBefore i).field? .query = (graph.entries.findSome? fun node =>
        ((execution.outputsBefore i).find? node.id).bind (·.find? "query")) ∧
      (Resolver.standard.resolve step.nodeType ((execution.outputsBefore i).hearing first.id)
          input = record.input ↔
        (output.find? "query").isSome ∨ (execution.outputsBefore i).field? .query = none ∨
          (execution.outputsBefore i).field? .query = input.find? "query" ∨
          (step.nodeType = .embed ∧
            ((execution.outputsBefore i).field? ⟨.hyde, "document"⟩).isSome)) := by
  have found := hasEntries_outputsBefore planned h hstep hrecord later
  have query := found.field?_query "query"
  obtain ⟨output, houtput⟩ : ∃ output, (execution.outputsBefore i).find? first.id = some output :=
    found.exists_output (entries ▸ List.mem_cons_self)
  refine ⟨output, houtput, query, ?_⟩
  have heard : ((execution.outputsBefore i).hearing first.id).field? .query =
      output.find? "query" := by
    rw [FieldSource.query, found.field?_hearing entries, houtput]
    rfl
  have implies : ∀ value, output.find? "query" = some value →
      (execution.outputsBefore i).field? .query = some value := by
    intro value passed
    rw [FieldSource.query, query, entries, List.findSome?_cons, houtput, Option.bind_some, passed]
  rw [input_eq_resolve planned h hstep hrecord, Resolver.resolve_hearing_iff later]
  by_cases embeds : step.nodeType = .embed
  · rw [embeds, NodeType.value?_asking_embed, NodeType.value?_asking_embed, heard,
      Outputs.field?_hearing_of_ne (by decide)]
    cases document : (execution.outputsBefore i).field? ⟨.hyde, "document"⟩ with
    | some value => simp
    | none => simpa using orElse_eq_iff implies
  · rw [NodeType.value?_asking embeds, NodeType.value?_asking embeds, heard,
      orElse_eq_iff implies]
    simp [embeds]

/-- Two questions, each with its own text, and an answer to both. -/
theorem hears_first_of_two :
    let asking (text : String) : Json := .obj [("query", .str text)]
    let graph : Graph :=
      ⟨[(Node.ofId "first" .query).withConfig "emit" (asking "one"),
          (Node.ofId "second" .query).withConfig "emit" (asking "two"), .ofId "answer" .generate],
        [⟨"e1", "first", "answer"⟩, ⟨"e2", "second", "answer"⟩]⟩
    let execution := execute ⟨.echoing, .standard⟩ ⟨.nil, fun n => ⟨n⟩, fun _ => default⟩ "canvas"
      graph Dict.empty
    ∃ plan step record, graph.plan = .ok plan ∧ plan.steps[2]? = some step ∧
      step.origin = ("answer", .generate) ∧ execution.report.steps[2]? = some record ∧
      Resolver.standard.resolve step.nodeType ((execution.outputsBefore 2).hearing "first")
        Dict.empty = record.input := by
  intro asking graph execution
  obtain ⟨plan, planned, origins⟩ : ∃ plan, graph.plan = .ok plan ∧
      plan.steps.map PlanStep.origin = [("first", .query), ("second", .query),
        ("answer", .generate)] := Graph.exists_plan_of_origins (by decide)
  obtain ⟨step, hstep, origin⟩ : ∃ step, plan.steps[2]? = some step ∧
      step.origin = ("answer", .generate) := by
    rw [← Option.map_eq_some_iff, ← List.getElem?_map, origins]
    rfl
  have type : step.nodeType = .generate := congrArg Prod.snd origin
  have dispatched : execution.report.steps[2]?.isSome := by decide +kernel
  obtain ⟨record, hrecord⟩ := Option.isSome_iff_exists.1 dispatched
  have passed : (((execution.outputsBefore 2).find? "first").bind (·.find? "query")).isSome := by
    decide +kernel
  have h : execute _ _ _ _ _ = execution := rfl
  clear_value execution
  obtain ⟨output, houtput, _, heard⟩ :=
    hears_first_entry_iff planned rfl h hstep hrecord (by rw [type]; decide)
  change (execution.outputsBefore 2).find? "first" = some output at houtput
  rw [houtput] at passed
  exact ⟨plan, step, record, planned, hstep, origin, hrecord, heard.2 (.inl passed)⟩

/-- The first entry node passes no query on, and the second is heard in its place. -/
theorem hears_second_entry :
    let graph : Graph :=
      ⟨[.ofId "first" .query,
          (Node.ofId "second" .query).withConfig "emit" (.obj [("query", .str "two")]),
          .ofId "answer" .generate],
        [⟨"e1", "first", "answer"⟩, ⟨"e2", "second", "answer"⟩]⟩
    let execution := execute ⟨.echoing, .standard⟩ ⟨.nil, fun n => ⟨n⟩, fun _ => default⟩ "canvas"
      graph Dict.empty
    ∃ plan step record, graph.plan = .ok plan ∧ plan.steps[2]? = some step ∧
      step.origin = ("answer", .generate) ∧ execution.report.steps[2]? = some record ∧
      (record.input.find? "query").bind Json.text? = some "two" ∧
      Resolver.standard.resolve step.nodeType ((execution.outputsBefore 2).hearing "first")
        Dict.empty ≠ record.input := by
  intro graph execution
  obtain ⟨plan, planned, origins⟩ : ∃ plan, graph.plan = .ok plan ∧
      plan.steps.map PlanStep.origin = [("first", .query), ("second", .query),
        ("answer", .generate)] := Graph.exists_plan_of_origins (by decide)
  obtain ⟨step, hstep, origin⟩ : ∃ step, plan.steps[2]? = some step ∧
      step.origin = ("answer", .generate) := by
    rw [← Option.map_eq_some_iff, ← List.getElem?_map, origins]
    rfl
  have type : step.nodeType = .generate := congrArg Prod.snd origin
  have asked : execution.report.steps[2]?.bind
      (fun record => (record.input.find? "query").bind Json.text?) = some "two" := by
    decide +kernel
  obtain ⟨record, hrecord, two⟩ := Option.bind_eq_some_iff.1 asked
  have unasked : ((Resolver.standard.resolve .generate
      ((execution.outputsBefore 2).hearing "first") Dict.empty).find? "query").isNone := by
    decide +kernel
  refine ⟨plan, step, record, planned, hstep, origin, hrecord, two, fun same => ?_⟩
  rw [type] at same
  rw [same, Option.isNone_iff_eq_none] at unasked
  rw [unasked] at two
  exact absurd two (by simp)

end Orchestrator

end Canvas
