import Canvas.Proofs.Plan

/-!
# Entry nodes come first

What is released stays released in the order of its release: placing a node only takes it from the
front of the queue, and later releases go behind it. So an execution order begins with the nodes
that are released at the start. On a runnable canvas nothing feeds an entry node, and a plan begins
with all of them, in the order in which they were drawn.
-/

namespace Canvas

namespace Placement

variable {wiring : Wiring} {state next : Placement}

/-- The nodes that were released, in the order of their release. -/
def released (state : Placement) : List String := state.placed ++ state.queue

theorem released_release (state : Placement) (id : String) :
    state.released <+: (state.release id).released := by
  unfold released
  rw [placed_release, queue_release]
  split
  · rw [← List.append_assoc]
    exact List.prefix_append _ _
  · exact List.prefix_refl _

theorem released_foldl_release (edges : List Edge) (state : Placement) :
    state.released <+: (edges.foldl (fun state edge => state.release edge.target) state).released := by
  induction edges generalizing state with
  | nil => exact List.prefix_refl _
  | cons edge rest ih => exact (released_release state edge.target).trans (ih _)

/-- Placing a node moves it from the queue to the nodes placed and releases others behind it. -/
theorem released_step (h : state.step? wiring = some next) : state.released <+: next.released := by
  unfold step? at h
  split at h
  · contradiction
  · rename_i id rest hq
    obtain rfl := Option.some.inj h
    let placed : Placement := { state with placed := state.placed ++ [id], queue := rest }
    have same : state.released = placed.released := by
      rw [released, hq]
      exact (List.append_cons state.placed id rest)
    rw [same]
    exact released_foldl_release (wiring.outgoing id) placed

theorem released_advance (wiring : Wiring) (count : Nat) (state : Placement) :
    state.released <+: (state.advance wiring count).released := by
  induction count generalizing state with
  | zero => exact List.prefix_refl _
  | succ count ih =>
      rw [advance]
      cases hs : state.step? wiring with
      | none => exact List.prefix_refl _
      | some next => exact (released_step hs).trans (ih next)

end Placement

namespace Wiring

variable {wiring : Wiring} {order : List String}

/-- An order begins with the nodes that are released at the start. -/
theorem initialQueue_isPrefix (h : wiring.order = .ok order) : wiring.initialQueue <+: order := by
  obtain ⟨rfl, _⟩ := wiring.order_eq_ok_iff.1 h
  have grown : wiring.initialPlacement.released <+: wiring.finalPlacement.released :=
    Placement.released_advance wiring _ _
  rwa [Placement.released, Placement.released, wiring.balanced_finalPlacement.2,
    List.append_nil] at grown

end Wiring

namespace NodeType

theorem entry_not_mem_targets {source target : NodeType} (h : target.isEntry = true) :
    target ∉ source.targets := by
  rw [isEntry_iff.1 h]
  cases source <;> decide

end NodeType

namespace Graph

variable {graph : Graph} {plan : Plan} {node : Node}

/-- No edge of a runnable canvas leads to an entry node. -/
theorem Runnable.target_ne_entry (h : graph.Runnable) (hnode : node ∈ graph.nodes)
    (entry : node.type.isEntry = true) {edge : Edge} (he : edge ∈ graph.edges) :
    edge.target ≠ node.id := by
  intro target
  obtain ⟨source, hsource, hid⟩ := List.mem_map.1 (h.live edge he).1
  have allowed := h.allowed edge he source hsource node hnode hid target.symm
  exact NodeType.entry_not_mem_targets entry allowed

theorem nodup_nodeIds (h : graph.plan = .ok plan) : plan.nodeIds.Nodup := by
  obtain ⟨nodes, complete, rfl, _⟩ := exists_nodes_of_plan h
  have ids : (nodes.map graph.stepOf).map (·.nodeId) = nodes.map (·.id) := List.map_map
  change ((nodes.map graph.stepOf).map (·.nodeId)).Nodup
  rw [ids]
  exact (complete.map _).nodup_iff.2 (valid_iff_runnable.1 (valid_of_plan h)).distinct

theorem entries_isPrefix_plan (h : graph.plan = .ok plan) :
    graph.entries.map graph.stepOf <+: plan.steps := by
  have runnable := valid_iff_runnable.1 (valid_of_plan h)
  obtain ⟨wiring, order, built, ordered, planned⟩ := exists_plan_of_valid (valid_of_plan h)
  obtain ⟨hnodes, hedges⟩ := Wiring.strict_eq_ok_iff.1 built
  obtain rfl := Except.ok.inj (planned.symm.trans h)
  have unfed : wiring.roots.filter (·.type.isEntry) = graph.entries := by
    rw [entries, Wiring.roots, hnodes, List.filter_filter]
    refine List.filter_congr fun node hnode => ?_
    cases entry : node.type.isEntry with
    | false => rfl
    | true =>
        have none : wiring.incoming node.id = [] := by
          rw [Wiring.incoming, hedges]
          refine List.filter_eq_nil_iff.2 fun edge he => ?_
          simpa using runnable.target_ne_entry hnode entry he
        rw [none]
        rfl
  have first : graph.entries.map (·.id) <+: order := by
    refine List.IsPrefix.trans ?_ (Wiring.initialQueue_isPrefix ordered)
    rw [Wiring.initialQueue, unfed, List.map_append]
    exact List.prefix_append _ _
  have found : wiring.nodesOf (graph.entries.map (·.id)) = graph.entries := by
    rw [Wiring.nodesOf, List.filterMap_map]
    refine (List.filterMap_congr fun node hnode => ?_).trans List.filterMap_some
    refine Wiring.node?_eq_some_iff.2 ⟨?_, rfl⟩
    rw [hnodes]
    exact (List.mem_filter.1 hnode).1
  have nodes : graph.entries <+: wiring.nodesOf order := by
    rw [← found]
    exact first.filterMap _
  exact nodes.map _

/-- A plan begins with the steps of the entry nodes, in the order of the nodes, and has no other
steps of entry nodes. -/
theorem exists_steps_behind_entries (h : graph.plan = .ok plan) :
    ∃ rest, plan.steps = graph.entries.map graph.stepOf ++ rest ∧
      ∀ step ∈ rest, step.nodeType ≠ .query := by
  obtain ⟨rest, split⟩ := entries_isPrefix_plan h
  refine ⟨rest, split.symm, fun step hstep entry => ?_⟩
  obtain ⟨nodes, complete, rfl, _⟩ := exists_nodes_of_plan h
  change _ = nodes.map graph.stepOf at split
  -- The plan has as many entry nodes as the canvas, and all of them stand in front.
  have count : (nodes.map graph.stepOf).countP (·.nodeType.isEntry) = graph.entries.length := by
    rw [List.countP_map, entries, ← List.countP_eq_length_filter]
    exact complete.countP_eq _
  have front : (graph.entries.map graph.stepOf).countP (·.nodeType.isEntry) =
      graph.entries.length := by
    rw [List.countP_map, List.countP_eq_length]
    exact fun node hnode => (List.mem_filter.1 hnode).2
  rw [← split, List.countP_append, front] at count
  have none : rest.countP (·.nodeType.isEntry) = 0 := by omega
  exact List.countP_eq_zero.1 none step hstep (NodeType.isEntry_iff.2 entry)

/-- Before a later step stand the steps of all entry nodes. -/
theorem filter_entry_take_steps {i : Nat} {step : PlanStep} (h : graph.plan = .ok plan)
    (hstep : plan.steps[i]? = some step) (later : step.nodeType ≠ .query) :
    (plan.steps.take i).filter (·.nodeType = .query) = graph.entries.map graph.stepOf := by
  obtain ⟨rest, steps, others⟩ := exists_steps_behind_entries h
  have entry : ∀ first ∈ graph.entries.map graph.stepOf, first.nodeType = .query := by
    intro first hfirst
    obtain ⟨node, hnode, rfl⟩ := List.mem_map.1 hfirst
    exact NodeType.isEntry_iff.1 (List.mem_filter.1 hnode).2
  rw [steps] at hstep ⊢
  have behind : (graph.entries.map graph.stepOf).length ≤ i := by
    by_contra early
    rw [List.getElem?_append_left (Nat.lt_of_not_le early)] at hstep
    exact later (entry step (List.mem_of_getElem? hstep))
  rw [List.take_append, List.take_of_length_le behind, List.filter_append]
  have all : (graph.entries.map graph.stepOf).filter (·.nodeType = .query) =
      graph.entries.map graph.stepOf :=
    List.filter_eq_self.2 fun first hfirst => decide_eq_true (entry first hfirst)
  have none : (rest.take (i - (graph.entries.map graph.stepOf).length)).filter
      (·.nodeType = .query) = [] :=
    List.filter_eq_nil_iff.2 fun other ho query =>
      others other (List.mem_of_mem_take ho) (of_decide_eq_true query)
  rw [all, none, List.append_nil]

end Graph

end Canvas
