import Canvas.Proofs.Graph.Order
import Canvas.Proofs.Plan
import Mathlib.Data.Set.Card

/-!
# Nodes that are never placed

Placement gets stuck in front of cycles. Whatever is placed is placed behind all nodes that lead
there, so no node on a cycle is placed and none behind one; and whatever is not placed is fed by a
node that is not placed either, and so on backwards until the walk comes round. Hence the number of
nodes that an error about a cycle gives is the number of nodes that lie behind no cycle.

`Graph.OrdersTo` lists the four ways in which ordering a graph as it was drawn can end. Their
conditions exclude each other.
-/

namespace Canvas

namespace Wiring

variable {wiring : Wiring} {order : List String} {a b id : String}

/-- What leads to a node of a legal order stands before it. -/
theorem Legal.of_leads (h : wiring.Legal order) (leads : wiring.Leads a b) (hb : b ∈ order) :
    a ∈ order ∧ order.idxOf a < order.idxOf b := by
  have source : ∀ edge ∈ wiring.edges, edge.target ∈ order →
      edge.source ∈ order ∧ order.idxOf edge.source < order.idxOf edge.target := by
    intro edge he htarget
    have before := h edge he htarget
    have bound := List.idxOf_lt_length_of_mem htarget
    exact ⟨List.idxOf_lt_length_iff.1 (Nat.lt_trans before bound), before⟩
  induction leads with
  | step hab =>
      obtain ⟨edge, he, rfl, rfl⟩ := mem_successors.1 hab
      exact source edge he hb
  | cons hab _ ih =>
      obtain ⟨edge, he, rfl, rfl⟩ := mem_successors.1 hab
      obtain ⟨hmiddle, later⟩ := ih hb
      obtain ⟨ha, first⟩ := source edge he hmiddle
      exact ⟨ha, Nat.lt_trans first later⟩

/-- Whether a node lies on a cycle or behind one. -/
def BehindCycle (wiring : Wiring) (id : String) : Prop :=
  ∃ c, wiring.Leads c c ∧ wiring.Leads c id

/-- The nodes that are placed are those that lie behind no cycle. -/
theorem mem_finalPlacement_iff :
    id ∈ wiring.finalPlacement.placed ↔ id ∈ wiring.ids ∧ ¬ wiring.BehindCycle id := by
  have balanced := wiring.balanced_finalPlacement.1
  constructor
  · intro placed
    refine ⟨balanced.known id placed, ?_⟩
    rintro ⟨c, cycle, leads⟩
    have hc := (balanced.legal.of_leads leads placed).1
    exact Nat.lt_irrefl _ (balanced.legal.of_leads cycle hc).2
  · rintro ⟨hid, free⟩
    by_contra unplaced
    have fed : ∀ id, id ∈ wiring.ids ∧ id ∉ wiring.finalPlacement.placed →
        ∃ edge ∈ wiring.edges, edge.target = id ∧
          (edge.source ∈ wiring.ids ∧ edge.source ∉ wiring.finalPlacement.placed) := by
      rintro id ⟨hid, unplaced⟩
      obtain ⟨edge, he, htarget, hsource⟩ := wiring.exists_unplaced_source hid unplaced
      exact ⟨edge, he, htarget, source_mem_ids he, hsource⟩
    obtain ⟨c, -, cycle, behind⟩ := exists_cycle_behind fed ⟨hid, unplaced⟩
    rcases behind with rfl | leads
    · exact free ⟨c, cycle, cycle⟩
    · exact free ⟨c, cycle, leads⟩

theorem length_finalPlacement (wiring : Wiring) :
    wiring.finalPlacement.placed.length =
      {id | id ∈ wiring.ids ∧ ¬ wiring.BehindCycle id}.ncard := by
  have placed : {id | id ∈ wiring.ids ∧ ¬ wiring.BehindCycle id} =
      (wiring.finalPlacement.placed.toFinset : Set String) := by
    ext id
    rw [List.coe_toFinset]
    exact mem_finalPlacement_iff.symm
  rw [placed, Set.ncard_coe_finset,
    List.toFinset_card_of_nodup wiring.nodup_finalPlacement]

/-- A graph with a cycle has no order, and the error counts the nodes that could be placed. -/
theorem order_of_not_acyclic (cyclic : ¬ wiring.Acyclic) :
    wiring.order = .error (.cycleDetected
      {id | id ∈ wiring.ids ∧ ¬ wiring.BehindCycle id}.ncard wiring.nodes.length) := by
  rw [← length_finalPlacement]
  have none : ¬ ∃ order, wiring.order = .ok order := mt wiring.exists_order_iff_acyclic.1 cyclic
  change (if wiring.finalPlacement.placed.length < wiring.nodes.length then _ else _) = _
  split
  · rfl
  · rename_i long
    exact absurd ⟨_, if_neg long⟩ none

/-- Ordering fails exactly on graphs with a cycle. -/
theorem order_eq_cycleDetected_iff :
    (∃ ordered total, wiring.order = .error (.cycleDetected ordered total)) ↔
      ¬ wiring.Acyclic := by
  constructor
  · rintro ⟨ordered, total, failed⟩ acyclic
    obtain ⟨order, found⟩ := wiring.exists_order_iff_acyclic.2 acyclic
    rw [found] at failed
    contradiction
  · exact fun cyclic => ⟨_, _, order_of_not_acyclic cyclic⟩

end Wiring

namespace Graph

/-- Whether a walk leads to a node from a cycle. It does to the nodes on the cycle. -/
def BehindCycle (graph : Graph) (id : String) : Prop :=
  ∃ cycle walk c, Walk c cycle c ∧ Walk c walk id ∧ cycle ⊆ graph.edges ∧ walk ⊆ graph.edges

/-- How ordering a graph as it was drawn can end. A repeated id comes before an unknown end of an
edge, and both come before a cycle; of several the first counts. -/
inductive OrdersTo (graph : Graph) : Except PlanningError (List String) → Prop where
  | duplicateNode {before after : List String} {id : String} :
      graph.ids = before ++ id :: after → before.Nodup → id ∈ before →
      OrdersTo graph (.error (.duplicateNode id))
  | unknownSource {before after : List Edge} {edge : Edge} :
      graph.ids.Nodup → graph.edges = before ++ edge :: after →
      (∀ earlier ∈ before, earlier.source ∈ graph.ids ∧ earlier.target ∈ graph.ids) →
      edge.source ∉ graph.ids →
      OrdersTo graph (.error (.unknownNode edge.id edge.source))
  | unknownTarget {before after : List Edge} {edge : Edge} :
      graph.ids.Nodup → graph.edges = before ++ edge :: after →
      (∀ earlier ∈ before, earlier.source ∈ graph.ids ∧ earlier.target ∈ graph.ids) →
      edge.source ∈ graph.ids → edge.target ∉ graph.ids →
      OrdersTo graph (.error (.unknownNode edge.id edge.target))
  | ordered {order : List String} :
      graph.ids.Nodup → (∀ edge ∈ graph.edges, edge.source ∈ graph.ids ∧ edge.target ∈ graph.ids) →
      (∀ id cycle, Walk id cycle id → ¬ cycle ⊆ graph.edges) →
      order.Perm graph.ids →
      (∀ edge ∈ graph.edges, order.idxOf edge.source < order.idxOf edge.target) →
      OrdersTo graph (.ok order)
  | cycleDetected {id : String} {cycle : List Edge} :
      graph.ids.Nodup → (∀ edge ∈ graph.edges, edge.source ∈ graph.ids ∧ edge.target ∈ graph.ids) →
      Walk id cycle id → cycle ⊆ graph.edges →
      OrdersTo graph (.error (.cycleDetected
        {id | id ∈ graph.ids ∧ ¬ graph.BehindCycle id}.ncard graph.nodes.length))

end Graph

namespace Wiring

variable {graph : Graph} {wiring : Wiring} {error : PlanningError}

theorem behindCycle_iff (same : wiring.edges = graph.edges) {id : String} :
    wiring.BehindCycle id ↔ graph.BehindCycle id := by
  constructor
  · rintro ⟨c, cyclic, leads⟩
    obtain ⟨cycle, hcycle, within⟩ := leads_iff_exists_walk.1 cyclic
    obtain ⟨walk, hwalk, within'⟩ := leads_iff_exists_walk.1 leads
    exact ⟨cycle, walk, c, hcycle, hwalk, same ▸ within, same ▸ within'⟩
  · rintro ⟨cycle, walk, c, hcycle, hwalk, within, within'⟩
    exact ⟨c, leads_iff_exists_walk.2 ⟨cycle, hcycle, same ▸ within⟩,
      leads_iff_exists_walk.2 ⟨walk, hwalk, same ▸ within'⟩⟩

/-- A graph that can be built as it was drawn is ordered or has a cycle. -/
theorem ordersTo_order (nodes : wiring.nodes = graph.nodes)
    (edges : wiring.edges = graph.edges) : graph.OrdersTo wiring.order := by
  have ids : wiring.ids = graph.ids := by rw [Wiring.ids, nodes, Graph.ids]
  have distinct : graph.ids.Nodup := ids ▸ wiring.nodup_ids
  have live : ∀ edge ∈ graph.edges, edge.source ∈ graph.ids ∧ edge.target ∈ graph.ids := by
    intro edge he
    rw [← edges] at he
    exact ids ▸ ⟨source_mem_ids he, target_mem_ids he⟩
  by_cases acyclic : wiring.Acyclic
  · obtain ⟨order, found⟩ := wiring.exists_order_iff_acyclic.2 acyclic
    obtain ⟨complete, legal⟩ := wiring.order_legal found
    rw [found]
    refine .ordered distinct live ?_ (ids ▸ complete) (edges ▸ legal.idxOf_lt complete)
    intro id cycle hcycle within
    exact acyclic id (leads_iff_exists_walk.2 ⟨cycle, hcycle, edges ▸ within⟩)
  · obtain ⟨id, cyclic⟩ : ∃ id, wiring.Leads id id := by simpa [Acyclic] using acyclic
    obtain ⟨cycle, hcycle, within⟩ := leads_iff_exists_walk.1 cyclic
    have free : {id | id ∈ wiring.ids ∧ ¬ wiring.BehindCycle id} =
        {id | id ∈ graph.ids ∧ ¬ graph.BehindCycle id} := by
      simp only [ids, behindCycle_iff edges]
    rw [order_of_not_acyclic acyclic, free, nodes]
    exact .cycleDetected distinct live hcycle (edges ▸ within)

/-- Adding nodes ends at the first whose id is there already or comes earlier. -/
theorem exists_of_addNodes_error {nodes : List Node}
    (h : wiring.addNodes true nodes = .error error) :
    ∃ before node after, nodes = before ++ node :: after ∧
      (wiring.ids ++ before.map (·.id)).Nodup ∧ node.id ∈ wiring.ids ++ before.map (·.id) ∧
      error = .duplicateNode node.id := by
  induction nodes generalizing wiring with
  | nil => contradiction
  | cons node rest ih =>
      by_cases known : node.id ∈ wiring.ids
      · rw [addNodes, dif_pos known] at h
        refine ⟨[], node, rest, rfl, ?_, ?_, (Except.error.inj h).symm⟩
        · simpa using wiring.nodup_ids
        · simpa using known
      · rw [addNodes, dif_neg known] at h
        obtain ⟨before, repeated, after, rfl, nodup, found, named⟩ := ih h
        rw [ids_addNode, List.append_assoc] at nodup found
        exact ⟨node :: before, repeated, after, rfl, nodup, found, named⟩

/-- Adding edges ends at the first with an unknown end. -/
theorem exists_of_addEdges_error {edges : List Edge}
    (h : wiring.addEdges true edges = .error error) :
    ∃ before edge after, edges = before ++ edge :: after ∧
      (∀ earlier ∈ before, earlier.source ∈ wiring.ids ∧ earlier.target ∈ wiring.ids) ∧
      (edge.source ∉ wiring.ids ∧ error = .unknownNode edge.id edge.source ∨
        edge.source ∈ wiring.ids ∧ edge.target ∉ wiring.ids ∧
          error = .unknownNode edge.id edge.target) := by
  induction edges generalizing wiring with
  | nil => contradiction
  | cons edge rest ih =>
      by_cases ends : edge.source ∈ wiring.ids ∧ edge.target ∈ wiring.ids
      · rw [addEdges, dif_pos ends] at h
        obtain ⟨before, dangling, after, rfl, live, fault⟩ := ih h
        exact ⟨edge :: before, dangling, after, rfl, List.forall_mem_cons.2 ⟨ends, live⟩, fault⟩
      · rw [addEdges, dif_neg ends] at h
        refine ⟨[], edge, rest, rfl, List.forall_mem_nil _, ?_⟩
        by_cases source : edge.source ∈ wiring.ids
        · have target : edge.target ∉ wiring.ids := fun target => ends ⟨source, target⟩
          rw [if_neg (by simp), if_neg (not_not.2 source)] at h
          exact .inr ⟨source, target, (Except.error.inj h).symm⟩
        · rw [if_neg (by simp), if_pos source] at h
          exact .inl ⟨source, (Except.error.inj h).symm⟩

/-- A graph that cannot be built has a repeated id or an edge with an unknown end. -/
theorem ordersTo_of_strict (h : strict graph = .error error) : graph.OrdersTo (.error error) := by
  cases added : empty.addNodes true graph.nodes with
  | error fault =>
      rw [strict, build, added] at h
      obtain rfl := Except.error.inj h
      obtain ⟨before, node, after, split, nodup, repeated, rfl⟩ := exists_of_addNodes_error added
      have ids : graph.ids = before.map (·.id) ++ node.id :: after.map (·.id) := by
        rw [Graph.ids, split, List.map_append, List.map_cons]
      exact .duplicateNode ids nodup repeated
  | ok start =>
      rw [strict, build_of_addNodes added] at h
      have ids : start.ids = graph.ids := congrArg _ (addNodes_true_iff.1 added).1
      have distinct : graph.ids.Nodup := ids ▸ start.nodup_ids
      obtain ⟨before, edge, after, split, live, fault⟩ := exists_of_addEdges_error h
      rw [ids] at live fault
      rcases fault with ⟨source, rfl⟩ | ⟨source, target, rfl⟩
      · exact .unknownSource distinct split live source
      · exact .unknownTarget distinct split live source target

end Wiring

namespace Graph

/-- Ordering a graph as it was drawn names the first repeated id, else the first unknown end of an
edge. Else it orders an acyclic graph, and of a graph with a cycle it counts the nodes that lie
behind none. -/
theorem order_ordersTo (graph : Graph) : graph.OrdersTo graph.order := by
  change graph.OrdersTo ((Wiring.strict graph).bind Wiring.order)
  cases built : Wiring.strict graph with
  | error error => exact Wiring.ordersTo_of_strict built
  | ok wiring =>
      obtain ⟨nodes, edges⟩ := Wiring.strict_eq_ok_iff.1 built
      exact Wiring.ordersTo_order nodes edges

end Graph

end Canvas
