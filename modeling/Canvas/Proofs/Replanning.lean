import Canvas.Proofs.Graph.CycleReport
import Canvas.Proofs.Graph.ReleaseOrder
import Canvas.Proofs.Plan

/-!
# Plans drawn as canvases

A plan can be drawn again: the nodes in the order of the steps and, step by step, an edge from each
input. What is drawn has the same plan. Edges between the same nodes have become one, and the edges
were put in another order, so nodes are released at other moments. They are released in the same
order all the same. A node still waits for the last of the nodes that feed it, and of the nodes that
wait for the same one, the one that was released first has the earlier step, so that its edges are
drawn first.
-/

namespace Canvas

namespace Wiring

variable {wiring other : Wiring} {order : List String} {edge later : Edge} {node : Node}
variable {id a b source : String} {index i j : Nat}

/-- Whether a graph is another one with its nodes put in an order and its edges grouped by their
targets in this order. There may be more or fewer edges from one node to another, but not some
instead of none. -/
structure Regroups (other wiring : Wiring) (order : List String) : Prop where
  nodes : other.nodes = wiring.nodesOf order
  feeds : ∀ a b, (∃ edge ∈ other.edges, edge.source = a ∧ edge.target = b) ↔
    ∃ edge ∈ wiring.edges, edge.source = a ∧ edge.target = b
  grouped : other.edges.Pairwise fun edge later =>
    order.idxOf edge.target ≤ order.idxOf later.target

theorem mem_unfed_iff {entry : Bool} (hnode : node ∈ wiring.nodes) :
    node.id ∈ wiring.unfed entry ↔
      node.type.isEntry = entry ∧ ∀ edge ∈ wiring.edges, edge.target ≠ node.id := by
  simp only [unfed, List.mem_map, List.mem_filter, decide_eq_true_iff]
  constructor
  · rintro ⟨same, ⟨hsame, unfed⟩, named⟩
    obtain rfl := List.inj_on_of_nodup_map wiring.distinct hsame hnode named
    exact unfed
  · exact fun unfed => ⟨node, ⟨hnode, unfed⟩, rfl⟩

/-- Of distinct items those that stand in a stretch of them are the stretch. -/
theorem filter_mem_stretch {before stretch behind : List String}
    (distinct : (before ++ stretch ++ behind).Nodup) :
    (before ++ stretch ++ behind).filter (· ∈ stretch) = stretch := by
  obtain ⟨ahead, -, apart⟩ := List.nodup_append.1 distinct
  obtain ⟨-, -, apart'⟩ := List.nodup_append.1 ahead
  have first : before.filter (· ∈ stretch) = [] :=
    List.filter_eq_nil_iff.2 fun id hid listed =>
      apart' id hid id (of_decide_eq_true listed) rfl
  have last : behind.filter (· ∈ stretch) = [] :=
    List.filter_eq_nil_iff.2 fun id hid listed =>
      apart id (List.mem_append_right _ (of_decide_eq_true listed)) id hid rfl
  have middle : stretch.filter (· ∈ stretch) = stretch :=
    List.filter_eq_self.2 fun id hid => decide_eq_true hid
  rw [List.filter_append, List.filter_append, first, middle, last, List.nil_append,
    List.append_nil]

namespace Regroups

theorem exists_edge (h : other.Regroups wiring order) (he : edge ∈ other.edges) :
    ∃ former ∈ wiring.edges, former.source = edge.source ∧ former.target = edge.target :=
  (h.feeds _ _).1 ⟨edge, he, rfl, rfl⟩

theorem ids (h : other.Regroups wiring order) (complete : order.Perm wiring.ids) :
    other.ids = order := by
  rw [Wiring.ids, h.nodes]
  exact map_id_nodesOf complete.subset

/-- Edges are numbered by the positions of their targets. -/
theorem index_lt (h : other.Regroups wiring order) (number : other.edges[i]? = some edge)
    (number' : other.edges[j]? = some later)
    (lt : order.idxOf edge.target < order.idxOf later.target) : i < j := by
  obtain ⟨hi, rfl⟩ := List.getElem?_eq_some_iff.1 number
  obtain ⟨hj, rfl⟩ := List.getElem?_eq_some_iff.1 number'
  rcases Nat.lt_trichotomy i j with ahead | rfl | behind
  · exact ahead
  · exact absurd lt (Nat.lt_irrefl _)
  · have le := List.pairwise_iff_getElem.1 h.grouped j i hj hi behind
    exact absurd lt (Nat.not_lt_of_le le)

/-- A node waits for the same node as before. -/
theorem releases (h : other.Regroups wiring order) (r : wiring.Releases order source index id) :
    ∃ number, other.Releases order source number id := by
  obtain ⟨⟨former, at_, rfl, rfl⟩, last, -⟩ := r
  obtain ⟨edge, he, hsource, htarget⟩ :=
    (h.feeds _ _).2 ⟨former, List.mem_of_getElem? at_, rfl, rfl⟩
  obtain ⟨final, found⟩ := exists_latestEdge? he
  obtain ⟨same, number, hnumber, latest⟩ := find?_reverse_eq_some_iff.1 found
  rw [hsource, htarget] at same latest
  rw [Bool.and_eq_true, decide_eq_true_iff, decide_eq_true_iff] at same
  refine ⟨number, ⟨final, hnumber, same.1, same.2⟩, ?last, ?latest⟩
  case last =>
    intro edge he target
    obtain ⟨former, hformer, hsource, htarget⟩ := h.exists_edge he
    rw [← hsource]
    exact last former hformer (htarget.trans target)
  case latest =>
    intro position other hother hsource htarget
    by_contra behind
    have different := latest position other (Nat.lt_of_not_le behind) hother
    simp [hsource, htarget] at different

/-- Nodes are released in the same order as before. -/
theorem releasedBefore (h : other.Regroups wiring order) (before : wiring.ReleasedBefore order a b)
    (lt : order.idxOf a < order.idxOf b) : other.ReleasedBefore order a b := by
  obtain ⟨_, _, ⟨source, _, released, rfl⟩, ⟨source', _, released', rfl⟩, earlier⟩ := before
  obtain ⟨number, r⟩ := h.releases released
  obtain ⟨number', r'⟩ := h.releases released'
  refine ⟨_, _, ⟨source, number, r, rfl⟩, ⟨source', number', r', rfl⟩, ?_⟩
  rcases Prod.Lex.toLex_lt_toLex.1 earlier with first | ⟨together, -⟩
  · exact Prod.Lex.toLex_lt_toLex.2 (.inl first)
  · obtain ⟨edge, hedge, -, rfl⟩ := r.feeds
    obtain ⟨edge', hedge', -, rfl⟩ := r'.feeds
    exact Prod.Lex.toLex_lt_toLex.2 (.inr ⟨together, h.index_lt hedge hedge' lt⟩)

/-- The nodes that nothing feeds are the same as before, now in the given order. -/
theorem unfed_eq (h : other.Regroups wiring order) (complete : order.Perm wiring.ids)
    (entry : Bool) : other.unfed entry = order.filter (· ∈ wiring.unfed entry) := by
  have same (id : String) :
      (∀ edge ∈ other.edges, edge.target ≠ id) ↔ ∀ edge ∈ wiring.edges, edge.target ≠ id := by
    constructor
    · intro none former hformer target
      obtain ⟨edge, he, -, htarget⟩ := (h.feeds _ _).2 ⟨former, hformer, rfl, rfl⟩
      exact none edge he (htarget.trans target)
    · intro none edge he target
      obtain ⟨former, hformer, -, htarget⟩ := h.exists_edge he
      exact none former hformer (htarget.trans target)
  rw [← h.ids complete, unfed, Wiring.ids, List.filter_map]
  refine congrArg _ (List.filter_congr fun node hnode => ?_)
  have known : node ∈ wiring.nodes := (nodesOf_perm complete).mem_iff.1 (h.nodes ▸ hnode)
  simp only [same, Function.comp_apply, mem_unfed_iff known]

/-- An order by release stays one when its graph is regrouped along it. -/
theorem byRelease (h : other.Regroups wiring order) (r : wiring.ByRelease order) :
    other.ByRelease order := by
  have distinct : order.Nodup := r.complete.nodup_iff.2 wiring.nodup_ids
  obtain ⟨rest, split, released⟩ := r.released
  refine ⟨.of_eq (h.ids r.complete).symm, ?legal, rest, ?split, ?released⟩
  case legal =>
    intro edge he target
    obtain ⟨former, hformer, hsource, htarget⟩ := h.exists_edge he
    rw [← htarget] at target
    rw [← hsource, ← htarget]
    exact r.legal former hformer target
  case split =>
    have entries : order.filter (· ∈ wiring.unfed true) = wiring.unfed true := by
      have parts : order = [] ++ wiring.unfed true ++ (wiring.unfed false ++ rest) := by
        rw [split, List.nil_append, List.append_assoc]
      rw [parts]
      exact filter_mem_stretch (parts ▸ distinct)
    have others : order.filter (· ∈ wiring.unfed false) = wiring.unfed false := by
      rw [split]
      exact filter_mem_stretch (split ▸ distinct)
    rw [h.unfed_eq r.complete, h.unfed_eq r.complete, entries, others]
    exact split
  case released =>
    have ascending : rest.Pairwise fun a b => order.idxOf a < order.idxOf b := by
      refine (pairwise_idxOf_lt distinct).sublist ?_
      rw [split]
      exact List.sublist_append_right _ _
    exact (released.and ascending).imp fun both => h.releasedBefore both.1 both.2

end Regroups

end Wiring

/-- The nodes that an edge connects. -/
def Edge.ends (edge : Edge) : String × String := (edge.source, edge.target)

section Linked

variable {inputs : String → List String} {order : List String} {id : String}

/-- The connections from its inputs to each node of an order. -/
def linked (inputs : String → List String) (order : List String) : List (String × String) :=
  order.flatMap fun id => (inputs id).map fun source => (source, id)

/-- The connections into a node are those from its inputs. -/
theorem filter_linked (distinct : order.Nodup) (id : String) :
    ((linked inputs order).filter (·.2 = id)).map (·.1) = if id ∈ order then inputs id else [] := by
  induction order with
  | nil => rfl
  | cons first rest ih =>
      obtain ⟨fresh, distinct⟩ := List.nodup_cons.1 distinct
      rw [linked, List.flatMap_cons, List.filter_append, List.map_append, ← linked, ih distinct,
        List.filter_map]
      by_cases same : first = id
      · subst same
        simp [fresh, Function.comp_def]
      · simp [same, Ne.symm same, Function.comp_def]

/-- Connections are grouped by their targets. -/
theorem pairwise_linked (inputs : String → List String) (distinct : order.Nodup) :
    (linked inputs order).Pairwise fun link later =>
      order.idxOf link.2 ≤ order.idxOf later.2 := by
  refine List.pairwise_flatMap.2 ⟨fun id _ => ?_, ?_⟩
  · exact List.pairwise_map.2 (List.pairwise_of_forall fun _ _ => Nat.le_refl _)
  · refine (pairwise_idxOf_lt distinct).imp fun {a b} lt link hlink later hlater => ?_
    obtain ⟨_, -, rfl⟩ := List.mem_map.1 hlink
    obtain ⟨_, -, rfl⟩ := List.mem_map.1 hlater
    exact Nat.le_of_lt lt

theorem eraseDups_eq_self {ids : List String} (distinct : ids.Nodup) : ids.eraseDups = ids := by
  induction ids with
  | nil => rfl
  | cons first rest ih =>
      obtain ⟨fresh, distinct⟩ := List.nodup_cons.1 distinct
      have kept : rest.filter (fun id => !id == first) = rest :=
        List.filter_eq_self.2 fun id hid => by
          have other : id ≠ first := fun same => fresh (same ▸ hid)
          simpa using other
      rw [List.eraseDups_cons, kept, ih distinct]

end Linked

/-- Whether a canvas is drawn after a plan: its nodes are those of the steps in order, and step by
step one edge leads to the node from each of its inputs in order. The edges may have any ids. -/
structure Plan.Draws (plan : Plan) (graph : Graph) : Prop where
  nodes : graph.nodes = plan.steps.map PlanStep.node
  edges : graph.edges.map Edge.ends =
    plan.steps.flatMap fun step => step.inputs.map fun source => (source, step.nodeId)

namespace Graph

variable {graph other : Graph} {plan : Plan} {wiring : Wiring} {order : List String}

theorem exists_order_of_plan (h : graph.plan = .ok plan) :
    ∃ wiring order, Wiring.strict graph = .ok wiring ∧ wiring.order = .ok order ∧
      plan = ⟨(wiring.nodesOf order).map graph.stepOf, graph.inputMapping⟩ := by
  obtain ⟨wiring, order, built, ordered, planned⟩ := exists_plan_of_valid (valid_of_plan h)
  exact ⟨wiring, order, built, ordered, Except.ok.inj (h.symm.trans planned)⟩

/-- The step of a node stands for the node. -/
theorem map_node_stepOf (graph : Graph) (nodes : List Node) :
    (nodes.map graph.stepOf).map PlanStep.node = nodes := by
  rw [List.map_map]
  exact List.map_id nodes

/-- A canvas that is drawn after a plan connects each node to the sources that it had. -/
theorem ends_eq_linked {nodes : List Node} (perm : nodes.Perm graph.nodes)
    (drawn : Plan.Draws ⟨nodes.map graph.stepOf, graph.inputMapping⟩ other) :
    other.edges.map Edge.ends = linked graph.sourcesOf (nodes.map (·.id)) := by
  rw [drawn.edges, linked, List.flatMap_map, List.flatMap_map]
  refine List.flatMap_congr fun node hnode => ?_
  rw [inputs_stepOf (List.mem_map_of_mem (perm.mem_iff.1 hnode))]
  rfl

theorem sourcesOf_eq_of_linked (live : ∀ edge ∈ graph.edges, edge.target ∈ order)
    (distinct : order.Nodup) (links : other.edges.map Edge.ends = linked graph.sourcesOf order)
    (id : String) : other.sourcesOf id = graph.sourcesOf id := by
  have sources : (other.edges.filter (·.target = id)).map (·.source) =
      ((other.edges.map Edge.ends).filter (·.2 = id)).map (·.1) := by
    rw [List.filter_map, List.map_map]
    rfl
  rw [sourcesOf, sources, links, filter_linked distinct]
  split
  · exact eraseDups_eq_self (graph.nodup_sourcesOf id)
  · rename_i unlisted
    refine (List.eq_nil_iff_forall_not_mem.2 fun source hsource => ?_).symm
    obtain ⟨edge, he, -, rfl⟩ := mem_sourcesOf.1 hsource
    exact unlisted (live edge he)

/-- A canvas with the nodes of a runnable one and connections only where that has some is
runnable. -/
theorem Runnable.of_connections (h : graph.Runnable) (perm : other.nodes.Perm graph.nodes)
    (feeds : ∀ edge ∈ other.edges,
      ∃ former ∈ graph.edges, former.source = edge.source ∧ former.target = edge.target) :
    other.Runnable := by
  obtain ⟨distinct, entry, terminal, live, allowed⟩ := h
  have ids : other.ids.Perm graph.ids := perm.map _
  refine ⟨ids.nodup_iff.2 distinct, ?entry, ?terminal, ?live, ?allowed⟩
  case entry =>
    obtain ⟨node, hnode, query⟩ := entry
    exact ⟨node, perm.mem_iff.2 hnode, query⟩
  case terminal =>
    obtain ⟨node, hnode, final⟩ := terminal
    exact ⟨node, perm.mem_iff.2 hnode, final⟩
  case live =>
    intro edge he
    obtain ⟨former, hformer, source, target⟩ := feeds edge he
    rw [← source, ← target, ids.mem_iff, ids.mem_iff]
    exact live former hformer
  case allowed =>
    intro edge he source hs target ht hsource htarget
    obtain ⟨former, hformer, fs, ft⟩ := feeds edge he
    exact allowed former hformer source (perm.mem_iff.1 hs) target (perm.mem_iff.1 ht)
      (hsource.trans fs.symm) (htarget.trans ft.symm)

section Sources

variable (sources : ∀ id, other.sourcesOf id = graph.sourcesOf id)

include sources

theorem connects_iff (a b : String) : (∃ edge ∈ other.edges, edge.source = a ∧ edge.target = b) ↔
    ∃ edge ∈ graph.edges, edge.source = a ∧ edge.target = b := by
  rw [← mem_sourcesOf, ← mem_sourcesOf, sources]

theorem inputMapping_eq_of_sources (known : other.ids.Perm graph.ids) :
    other.inputMapping = graph.inputMapping := by
  refine Dict.ext_find? fun id => ?_
  simp only [find?_inputMapping, sources, known.mem_iff]

theorem regroups_of_linked {drawn : Wiring} (built : Wiring.strict graph = .ok wiring)
    (built' : Wiring.strict other = .ok drawn) (distinct : order.Nodup)
    (nodes : other.nodes = wiring.nodesOf order)
    (links : other.edges.map Edge.ends = linked graph.sourcesOf order) :
    drawn.Regroups wiring order := by
  obtain ⟨-, hedges⟩ := Wiring.strict_eq_ok_iff.1 built
  obtain ⟨hnodes', hedges'⟩ := Wiring.strict_eq_ok_iff.1 built'
  refine ⟨hnodes'.trans nodes, ?_, ?_⟩
  · rw [hedges, hedges']
    exact connects_iff sources
  · have grouped := pairwise_linked graph.sourcesOf distinct
    rw [← links, List.pairwise_map] at grouped
    rw [hedges']
    exact grouped

end Sources

/-- A canvas that is drawn after a plan has the same plan. -/
theorem plan_of_draws (h : graph.plan = .ok plan) (draws : plan.Draws other) :
    other.plan = .ok plan := by
  obtain ⟨wiring, order, built, ordered, rfl⟩ := exists_order_of_plan h
  obtain ⟨hnodes, hedges⟩ := Wiring.strict_eq_ok_iff.1 built
  have byRelease := Wiring.byRelease_order ordered
  have distinct : order.Nodup := byRelease.complete.nodup_iff.2 wiring.nodup_ids
  -- The nodes are drawn in the order of the plan, and with the sources that they had.
  have nodes : other.nodes = wiring.nodesOf order := draws.nodes.trans (map_node_stepOf graph _)
  have perm : (wiring.nodesOf order).Perm graph.nodes :=
    hnodes ▸ Wiring.nodesOf_perm byRelease.complete
  have ids : (wiring.nodesOf order).map (·.id) = order :=
    Wiring.map_id_nodesOf byRelease.complete.subset
  have links : other.edges.map Edge.ends = linked graph.sourcesOf order :=
    ids ▸ ends_eq_linked perm draws
  have known : ∀ edge ∈ graph.edges, edge.target ∈ order := fun edge he =>
    byRelease.complete.mem_iff.2 (Wiring.target_mem_ids (hedges ▸ he))
  have sources := sourcesOf_eq_of_linked known distinct links
  have valid : other.validate.valid = true :=
    valid_iff_runnable.2 <| (valid_iff_runnable.1 (valid_of_plan h)).of_connections
      (nodes ▸ perm) fun edge he => (connects_iff sources _ _).1 ⟨edge, he, rfl, rfl⟩
  -- So what is drawn has a plan, in the one order by release.
  obtain ⟨drawn, order', built', ordered', planned⟩ := exists_plan_of_valid valid
  have regroups := regroups_of_linked sources built built' distinct nodes links
  obtain rfl : order' = order :=
    (Wiring.byRelease_order ordered').unique (regroups.byRelease byRelease)
  have placed : drawn.nodesOf order' = wiring.nodesOf order' := by
    have all : drawn.nodesOf drawn.ids = drawn.nodes := Wiring.nodesOf_ids
    rw [← regroups.nodes, ← all, regroups.ids byRelease.complete]
  have mapping : other.inputMapping = graph.inputMapping :=
    inputMapping_eq_of_sources sources ((nodes ▸ perm).map _)
  have steps : other.stepOf = graph.stepOf := by
    funext node
    rw [stepOf, stepOf, mapping]
  rw [planned, placed, mapping, steps]

/-- The second of two agents is released first, because the first waits for another edge from the
question. Drawn again, in the order of the plan and without the parallel edge, the canvas has the
same plan. -/
theorem plan_of_draws_parallel_edges :
    let graph : Graph :=
      ⟨[.ofId "first" .agent, .ofId "second" .agent, .ofId "question" .query],
        [⟨"e1", "question", "first"⟩, ⟨"e2", "question", "second"⟩, ⟨"e3", "question", "first"⟩]⟩
    let other : Graph :=
      ⟨[.ofId "question" .query, .ofId "second" .agent, .ofId "first" .agent],
        [⟨"a", "question", "second"⟩, ⟨"b", "question", "first"⟩]⟩
    ∃ plan, graph.plan = .ok plan ∧ plan.Draws other ∧ other.plan = .ok plan ∧
      plan.nodeIds = ["question", "second", "first"] := by
  intro graph other
  let wiring : Wiring := ⟨graph.nodes, graph.edges, by decide, by decide⟩
  let plan : Plan := ⟨other.nodes.map graph.stepOf, graph.inputMapping⟩
  have built : Wiring.strict graph = .ok wiring := Wiring.strict_eq_ok_iff.2 ⟨rfl, rfl⟩
  have ordered : wiring.order = .ok ["question", "second", "first"] := by decide
  have planned : graph.plan = .ok plan := plan_of_order (by decide) built ordered
  have draws : plan.Draws other := ⟨(map_node_stepOf graph other.nodes).symm, by decide⟩
  exact ⟨plan, planned, draws, plan_of_draws planned draws, by decide⟩

end Graph

end Canvas
