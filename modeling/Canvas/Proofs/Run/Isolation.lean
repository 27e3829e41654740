import Canvas.Proofs.Resolver
import Canvas.Proofs.Run.Outputs

/-!
# Which nodes an input comes from

A resolver knows the types of the nodes that completed, but not the edges between them. A field
comes from the newest output that has it, be its node upstream or not. So a step sees nothing of
other branches in a run whose suppliers all lie upstream; and it can see nothing of them in any run
of a canvas exactly if no step before it, from whose type it draws, lies on another branch.
-/

namespace Canvas

/-- Whether edges lead from one node to another. -/
def Graph.Upstream (graph : Graph) (a b : String) : Prop :=
  ∃ walk, Walk a walk b ∧ walk ⊆ graph.edges

/-- Whether a node is an entry node, or edges lead from it to a step. -/
def Graph.MayFeed (graph : Graph) (step : PlanStep) (origin : String × NodeType) : Prop :=
  origin.2 = .query ∨ graph.Upstream origin.1 step.nodeId

open Classical in
/-- The outputs of entry nodes and of the nodes upstream of a step. -/
noncomputable def Outputs.upstreamOf (outputs : Outputs) (graph : Graph) (step : PlanStep) :
    Outputs :=
  outputs.restrict fun completed => graph.MayFeed step completed.origin

theorem Outputs.mem_upstreamOf {outputs : Outputs} {graph : Graph} {step : PlanStep}
    {completed : Completed} :
    completed ∈ (outputs.upstreamOf graph step).entries ↔
      completed ∈ outputs.entries ∧ graph.MayFeed step completed.origin := by
  classical
  exact mem_restrict

/-- The output fields from which a step draws by the usual policies. -/
def PlanStep.sources (step : PlanStep) : List FieldSource :=
  (Resolver.standard.policy step.nodeType).sources

/-- Whether a node from whose type a step draws stands before it only if it may feed it. -/
def Plan.Shields (plan : Plan) (graph : Graph) (i : Nat) (step : PlanStep) : Prop :=
  ∀ j < i, ∀ earlier, plan.steps[j]? = some earlier →
    earlier.nodeType ∈ step.sources.map (·.type) → graph.MayFeed step earlier.origin

namespace Orchestrator

/-- Whether step `i` of a run has the input that entry nodes and nodes upstream make alone. -/
def Isolated (graph : Graph) (input : Record) (execution : Execution) (i : Nat) (step : PlanStep)
    (record : StepRecord) : Prop :=
  Resolver.standard.resolve step.nodeType ((execution.outputsBefore i).upstreamOf graph step)
    input = record.input

section Isolation

variable {registry : Registry} {draws : Draws} {canvasId : String} {graph : Graph}
variable {input : Record} {plan : Plan} {execution : Execution} {i : Nat} {step : PlanStep}
variable {record : StepRecord}

/-- A step sees nothing of other branches if no field of its input is supplied by them. -/
theorem isolated_of_suppliers (planned : graph.plan = .ok plan)
    (h : execute ⟨registry, .standard⟩ draws canvasId graph input = execution)
    (hstep : plan.steps[i]? = some step) (hrecord : execution.report.steps[i]? = some record)
    (supplied : ∀ source ∈ step.sources, ∀ completed,
      (execution.outputsBefore i).supplier? source = some completed →
      graph.MayFeed step completed.origin) :
    Isolated graph input execution i step record := by
  classical
  rw [Isolated, input_eq_resolve planned h hstep hrecord]
  exact Resolver.resolve_restrict (Resolver.nodup_fields_standard _) supplied

/-- What supplies a field to a step stands before it. -/
theorem exists_step_of_supplier {source : FieldSource} {completed : Completed}
    (planned : graph.plan = .ok plan)
    (h : execute ⟨registry, .standard⟩ draws canvasId graph input = execution)
    (hrecord : execution.report.steps[i]? = some record)
    (supplies : (execution.outputsBefore i).supplier? source = some completed) :
    ∃ j < i, ∃ earlier, plan.steps[j]? = some earlier ∧ earlier.origin = completed.origin ∧
      earlier.nodeType = source.type := by
  obtain ⟨found, type⟩ := Outputs.mem_of_supplier? supplies
  have listed : completed.origin ∈ (plan.steps.take i).map PlanStep.origin := by
    rw [← origins_outputsBefore planned h hrecord]
    exact List.mem_map_of_mem found
  obtain ⟨earlier, hearlier, same⟩ := List.mem_map.1 listed
  obtain ⟨j, hj⟩ := List.mem_iff_getElem?.1 hearlier
  rw [List.getElem?_take] at hj
  split at hj
  · rename_i early
    exact ⟨j, early, earlier, hj, same, (congrArg Prod.snd same).trans type⟩
  · contradiction

section OnlySays

variable {source : FieldSource} {j : Nat} {earlier : PlanStep}

/-- Executors that say nothing, but for one step, which says one field. -/
def onlySays (j : Nat) (field : String) (k : Nat) : Record :=
  if k = j then Dict.empty.insert field .null else Dict.empty

/-- A step hears the one field that is said before it. -/
theorem field?_onlySays (planned : graph.plan = .ok plan)
    (h : execute ⟨.scripted (onlySays j source.field), .standard⟩ draws canvasId graph input =
      execution)
    (early : j < i) (hearlier : plan.steps[j]? = some earlier)
    (type : source.type = earlier.nodeType) :
    (execution.outputsBefore i).field? source ≠ none := by
  intro unheard
  have output : (⟨earlier.nodeId, earlier.nodeType, onlySays j source.field j⟩ : Completed) ∈
      (execution.outputsBefore i).entries :=
    (mem_outputsBefore_scripted planned h).2 ⟨j, early, earlier, hearlier, rfl⟩
  have empty := Outputs.field?_eq_none_iff.1 unheard _ output type.symm
  simp [onlySays] at empty

/-- Upstream nothing is said, if the one field is said elsewhere. -/
theorem field?_upstreamOf_onlySays {field : String} (planned : graph.plan = .ok plan)
    (h : execute ⟨.scripted (onlySays j field), .standard⟩ draws canvasId graph input = execution)
    (hearlier : plan.steps[j]? = some earlier) (aside : ¬ graph.MayFeed step earlier.origin) :
    ((execution.outputsBefore i).upstreamOf graph step).field? source = none := by
  refine Outputs.field?_eq_none_iff.2 fun completed visible _ => ?_
  obtain ⟨found, feeds⟩ := Outputs.mem_upstreamOf.1 visible
  obtain ⟨k, _, sayer, hk, rfl⟩ := (mem_outputsBefore_scripted planned h).1 found
  have silent : k ≠ j := by
    rintro rfl
    obtain rfl := Option.some.inj (hearlier.symm.trans hk)
    exact aside feeds
  change (onlySays j field k).find? source.field = none
  rw [onlySays, if_neg silent]
  rfl

/-- A step that stands before another, and from whose type this one draws, makes a difference to it
in the run in which it says the field and no other step says anything. -/
theorem exists_not_isolated (planned : graph.plan = .ok plan)
    (hstep : plan.steps[i]? = some step) (early : j < i)
    (hearlier : plan.steps[j]? = some earlier)
    (drawn : earlier.nodeType ∈ step.sources.map (·.type))
    (aside : ¬ graph.MayFeed step earlier.origin) (draws : Draws) (canvasId : String) :
    ∃ registry execution record,
      execute ⟨registry, .standard⟩ draws canvasId graph Dict.empty = execution ∧
      execution.report.steps[i]? = some record ∧
      ¬ Isolated graph Dict.empty execution i step record := by
  obtain ⟨source, hsource, type⟩ := List.mem_map.1 drawn
  obtain ⟨binding, bound, listed⟩ := List.mem_flatMap.1 hsource
  let registry : Registry := .scripted (onlySays j source.field)
  obtain ⟨execution, h⟩ : ∃ execution,
      execute ⟨registry, .standard⟩ draws canvasId graph Dict.empty = execution := ⟨_, rfl⟩
  have dispatched : i < execution.report.steps.length := by
    rw [(outputsBefore_scripted planned h).1]
    exact (List.getElem?_eq_some_iff.1 hstep).1
  have hrecord := List.getElem?_eq_getElem dispatched
  refine ⟨registry, execution, execution.report.steps[i], h, hrecord, fun isolated => ?_⟩
  rw [Isolated, input_eq_resolve planned h hstep hrecord,
    Resolver.resolve_eq_iff (Resolver.nodup_fields_standard _)] at isolated
  have same := isolated binding bound
  rw [Binding.value?_empty, Binding.value?_empty] at same
  have unheard : binding.sources.findSome?
      ((execution.outputsBefore i).upstreamOf graph step).field? = none :=
    List.findSome?_eq_none_iff.2 fun _ _ => field?_upstreamOf_onlySays planned h hearlier aside
  rw [unheard, eq_comm, List.findSome?_eq_none_iff] at same
  exact field?_onlySays planned h early hearlier type (same source listed)

end OnlySays

/-- Isolation of a step from other branches. In one run it is enough that whatever supplies a field
of its input is an entry node or lies upstream. It holds in all runs, with all registries and
inputs, exactly if this is so of every step that stands before and has a type from which it
draws. -/
theorem isolated_iff_shields (planned : graph.plan = .ok plan)
    (hstep : plan.steps[i]? = some step) :
    (∀ registry draws canvasId input execution record,
      execute ⟨registry, .standard⟩ draws canvasId graph input = execution →
      execution.report.steps[i]? = some record →
      (∀ source ∈ step.sources, ∀ completed,
        (execution.outputsBefore i).supplier? source = some completed →
        graph.MayFeed step completed.origin) →
      Isolated graph input execution i step record) ∧
    ((∀ registry draws canvasId input execution record,
      execute ⟨registry, .standard⟩ draws canvasId graph input = execution →
      execution.report.steps[i]? = some record →
      Isolated graph input execution i step record) ↔ plan.Shields graph i step) := by
  refine ⟨?_, ?_, ?_⟩
  · intro registry draws canvasId input execution record h hrecord supplied
    exact isolated_of_suppliers planned h hstep hrecord supplied
  · intro isolated j early earlier hearlier drawn
    by_contra aside
    let draws : Draws := ⟨.nil, fun _ => .nil, fun _ => default⟩
    obtain ⟨registry, execution, record, h, hrecord, leaks⟩ :=
      exists_not_isolated planned hstep early hearlier drawn aside draws ""
    exact leaks (isolated registry draws "" Dict.empty execution record h hrecord)
  · intro shields registry draws canvasId input execution record h hrecord
    refine isolated_of_suppliers planned h hstep hrecord fun source hsource completed supplies => ?_
    obtain ⟨j, early, earlier, hearlier, origin, type⟩ :=
      exists_step_of_supplier planned h hrecord supplies
    rw [← origin]
    exact shields j early earlier hearlier (List.mem_map.2 ⟨source, hsource, type.symm⟩)

end Isolation

/-- On a pipeline the search is isolated in every run: it draws from the question and from the
embedding that feeds it. -/
theorem isolated_in_pipeline :
    let graph : Graph :=
      ⟨[.ofId "question" .query, .ofId "vector" .embed, .ofId "search" .retrieve,
          .ofId "answer" .generate],
        [⟨"e1", "question", "vector"⟩, ⟨"e2", "vector", "search"⟩, ⟨"e3", "search", "answer"⟩]⟩
    ∃ plan step, graph.plan = .ok plan ∧ plan.steps[2]? = some step ∧
      step.origin = ("search", .retrieve) ∧ plan.Shields graph 2 step ∧
      ∀ registry draws canvasId input execution record,
        execute ⟨registry, .standard⟩ draws canvasId graph input = execution →
        execution.report.steps[2]? = some record →
        Isolated graph input execution 2 step record := by
  intro graph
  obtain ⟨plan, planned, origins⟩ : ∃ plan, graph.plan = .ok plan ∧
      plan.steps.map PlanStep.origin = [("question", .query), ("vector", .embed),
        ("search", .retrieve), ("answer", .generate)] := Graph.exists_plan_of_origins (by decide)
  have originAt (j : Nat) : plan.steps[j]?.map PlanStep.origin =
      ([("question", .query), ("vector", .embed), ("search", .retrieve),
        ("answer", .generate)] : List (String × NodeType))[j]? := by
    rw [← List.getElem?_map, origins]
  obtain ⟨step, hstep, origin⟩ := Option.map_eq_some_iff.1 (originAt 2)
  have target : step.nodeId = "search" := congrArg Prod.fst origin
  have shields : plan.Shields graph 2 step := by
    intro j early earlier hearlier _
    have which := originAt j
    rw [hearlier] at which
    match j, early with
    | 0, _ => exact .inl (congrArg Prod.snd (Option.some.inj which))
    | 1, _ =>
        refine .inr ⟨[⟨"e2", "vector", "search"⟩], ?_, by simp [graph]⟩
        rw [Option.some.inj which, target]
        exact Walk.single ⟨"e2", "vector", "search"⟩
  exact ⟨plan, step, planned, hstep, origin, shields,
    (isolated_iff_shields planned hstep).2.2 shields⟩

/-- Of two embeddings the newest is searched for, though no edge leads from it to the search. -/
theorem not_isolated_from_newer_branch :
    let emitting (text : String) : Json := .obj [("embedding", .str text)]
    let graph : Graph :=
      ⟨[.ofId "question" .query, (Node.ofId "first" .embed).withConfig "emit" (emitting "one"),
          (Node.ofId "second" .embed).withConfig "emit" (emitting "two"), .ofId "search" .retrieve,
          .ofId "answer" .generate],
        [⟨"e1", "question", "first"⟩, ⟨"e2", "question", "second"⟩, ⟨"e3", "first", "search"⟩,
          ⟨"e4", "search", "answer"⟩]⟩
    let execution := execute ⟨.echoing, .standard⟩ ⟨.nil, fun n => ⟨n⟩, fun _ => default⟩ "canvas"
      graph Dict.empty
    ∃ plan step record, graph.plan = .ok plan ∧ plan.steps[3]? = some step ∧
      step.origin = ("search", .retrieve) ∧ execution.report.steps[3]? = some record ∧
      (record.input.find? "embedding").bind Json.text? = some "two" ∧
      ¬ Isolated graph Dict.empty execution 3 step record := by
  intro emitting graph execution
  obtain ⟨plan, planned, origins⟩ : ∃ plan, graph.plan = .ok plan ∧
      plan.steps.map PlanStep.origin = [("question", .query), ("first", .embed),
        ("second", .embed), ("search", .retrieve), ("answer", .generate)] :=
    Graph.exists_plan_of_origins (by decide)
  obtain ⟨step, hstep, origin⟩ : ∃ step, plan.steps[3]? = some step ∧
      step.origin = ("search", .retrieve) := by
    rw [← Option.map_eq_some_iff, ← List.getElem?_map, origins]
    rfl
  have said : execution.report.steps[3]?.bind
      (fun record => (record.input.find? "embedding").bind Json.text?) = some "two" := by
    decide +kernel
  obtain ⟨record, hrecord, two⟩ := Option.bind_eq_some_iff.1 said
  refine ⟨plan, step, record, planned, hstep, origin, hrecord, two, ?_⟩
  have newer : ∀ completed ∈ (execution.outputsBefore 3).entries,
      (completed.output.find? "embedding").bind Json.text? = some "two" →
      completed.origin = ("second", .embed) := by decide +kernel
  have aside : ¬ graph.MayFeed step ("second", .embed) := by
    have target : step.nodeId = "search" := congrArg Prod.fst origin
    rintro (query | ⟨walk, hwalk, within⟩)
    · exact absurd query (by decide)
    · rw [target] at hwalk
      let rank (id : String) : Nat :=
        ["question", "first", "search", "answer", "second"].idxOf id
      have climbs : ∀ edge ∈ graph.edges, rank edge.source < rank edge.target := by decide +kernel
      have lt : rank "second" < rank "search" :=
        hwalk.rank_lt rank fun edge he => climbs edge (within he)
      exact absurd lt (by decide)
  have type : step.nodeType = .retrieve := congrArg Prod.snd origin
  intro isolated
  rw [← isolated, type] at two
  obtain ⟨value, found, text⟩ := Option.bind_eq_some_iff.1 two
  -- The search takes an embedding from embeddings only, so a visible one says "two".
  have taken := (Resolver.find?_resolve (Resolver.nodup_fields_standard .retrieve)
    List.mem_cons_self).symm.trans found
  rw [Binding.value?_empty] at taken
  obtain ⟨source, hsource, supplied⟩ := List.exists_of_findSome?_eq_some taken
  obtain rfl := List.mem_singleton.1 hsource
  obtain ⟨completed, supplies, output⟩ := Outputs.field?_eq_some_iff.1 supplied
  obtain ⟨seen, feeds⟩ := Outputs.mem_upstreamOf.1 (Outputs.mem_of_supplier? supplies).1
  rw [newer completed seen (by rw [output]; exact text)] at feeds
  exact aside feeds

end Orchestrator

end Canvas
