import Canvas.Graph.Order
import Canvas.Proofs.Graph.Walk
import Mathlib.Data.List.Nodup
import Mathlib.Data.List.Perm.Subperm

/-!
# Execution orders

While nodes are placed, the number for which a node waits is the number of edges into it whose
source is not placed, and the queue holds exactly the unplaced nodes that wait for nothing.
`Placement.Balanced` states this also in the middle of a step, where some edges of the node that was
just placed are still to be consumed.

An order is found exactly if the graph is acyclic, and it is a legal one: it lists every node once
and the source of every edge before its target.
-/

namespace Canvas

namespace Wiring

variable {wiring : Wiring} {placed order : List String} {id other : String}

/-- The number of edges into a node whose source is not placed. -/
def openInto (wiring : Wiring) (placed : List String) (id : String) : Nat :=
  (wiring.incoming id).countP fun edge => edge.source ∉ placed

/-- Whether every listed node stands behind the sources of all edges into it. -/
def Legal (wiring : Wiring) (order : List String) : Prop :=
  ∀ edge ∈ wiring.edges, edge.target ∈ order →
    order.idxOf edge.source < order.idxOf edge.target

@[simp] theorem openInto_nil : wiring.openInto [] id = (wiring.incoming id).length := by
  simp [openInto]

theorem openInto_eq_zero_iff :
    wiring.openInto placed id = 0 ↔
      ∀ edge ∈ wiring.edges, edge.target = id → edge.source ∈ placed := by
  simp only [openInto, List.countP_eq_zero, mem_incoming, and_imp, decide_eq_true_eq, not_not]

/-- Placing a node closes just its own edges. -/
theorem openInto_place (fresh : other ∉ placed) (id : String) :
    wiring.openInto placed id =
      wiring.openInto (placed ++ [other]) id + (wiring.outgoing other).countP (·.target = id) := by
  simp only [openInto, incoming, outgoing, List.countP_filter]
  induction wiring.edges with
  | nil => rfl
  | cons edge rest ih =>
      simp only [List.countP_cons, ih]
      by_cases htarget : edge.target = id
      · by_cases hsource : edge.source = other
        · simp [htarget, hsource, fresh, Nat.add_assoc]
        · by_cases hplaced : edge.source ∈ placed
          · simp [htarget, hsource, hplaced]
          · simp [htarget, hsource, hplaced]
            omega
      · simp [htarget]

theorem Legal.nil (wiring : Wiring) : wiring.Legal [] := by
  intro edge _ h
  simp at h

theorem Legal.snoc (h : wiring.Legal order) (fresh : id ∉ order)
    (fed : ∀ edge ∈ wiring.edges, edge.target = id → edge.source ∈ order) :
    wiring.Legal (order ++ [id]) := by
  intro edge he htarget
  rcases List.mem_append.1 htarget with htarget | htarget
  · have before := h edge he htarget
    have hsource : edge.source ∈ order :=
      List.idxOf_lt_length_iff.1 (Nat.lt_trans before (List.idxOf_lt_length_of_mem htarget))
    rwa [List.idxOf_append_of_mem hsource, List.idxOf_append_of_mem htarget]
  · rw [List.mem_singleton] at htarget
    have hsource : edge.source ∈ order := fed edge he htarget
    rw [List.idxOf_append_of_mem hsource, htarget, List.idxOf_append_of_notMem fresh]
    exact Nat.lt_of_lt_of_le (List.idxOf_lt_length_of_mem hsource) (Nat.le_add_right _ _)

/-- The position in a legal order of all nodes is a rank along which every edge climbs. -/
theorem Legal.idxOf_lt (h : wiring.Legal order) (complete : order.Perm wiring.ids) :
    ∀ edge ∈ wiring.edges, order.idxOf edge.source < order.idxOf edge.target :=
  fun edge he => h edge he (complete.mem_iff.2 (target_mem_ids he))

end Wiring

namespace Placement

variable {wiring : Wiring} {left : List Edge} {edge : Edge} {state : Placement} {id : String}

@[simp] theorem placed_release : (state.release id).placed = state.placed := rfl

theorem waitsFor_release (state : Placement) (id other : String) :
    (state.release id).waitsFor other =
      if id = other then state.waitsFor id - 1 else state.waitsFor other := by
  simp only [release, waitsFor, Dict.find?_insert]
  split <;> rfl

theorem queue_release (state : Placement) (id : String) :
    (state.release id).queue =
      if state.waitsFor id - 1 = 0 then state.queue ++ [id] else state.queue := rfl

/-- The invariant of placement. `left` are the edges of the node placed last that are still to be
consumed, so between two steps it is empty. -/
structure Balanced (wiring : Wiring) (left : List Edge) (state : Placement) : Prop where
  known : ∀ id ∈ state.placed, id ∈ wiring.ids
  nodup : (state.placed ++ state.queue).Nodup
  waits : ∀ id ∈ wiring.ids,
    state.waitsFor id = wiring.openInto state.placed id + left.countP (·.target = id)
  queued : ∀ id, id ∈ state.queue ↔
    id ∈ wiring.ids ∧ id ∉ state.placed ∧ state.waitsFor id = 0
  settled : ∀ id ∈ state.placed, state.waitsFor id = 0
  legal : wiring.Legal state.placed

namespace Balanced

/-- A node with an edge still to be consumed waits for it, so taking one away is exact. -/
theorem waitsFor_pos (h : Balanced wiring (edge :: left) state) (he : edge ∈ wiring.edges) :
    0 < state.waitsFor edge.target := by
  have waits := h.waits _ (Wiring.target_mem_ids he)
  simp only [List.countP_cons, decide_true, if_true] at waits
  omega

theorem not_mem_placed (h : Balanced wiring (edge :: left) state) (he : edge ∈ wiring.edges) :
    edge.target ∉ state.placed :=
  fun hplaced => Nat.ne_of_gt (h.waitsFor_pos he) (h.settled _ hplaced)

theorem not_mem_queue (h : Balanced wiring (edge :: left) state) (he : edge ∈ wiring.edges) :
    edge.target ∉ state.queue :=
  fun hqueue => Nat.ne_of_gt (h.waitsFor_pos he) ((h.queued _).1 hqueue).2.2

/-- Consuming one edge. -/
theorem release (h : Balanced wiring (edge :: left) state) (he : edge ∈ wiring.edges) :
    Balanced wiring left (state.release edge.target) := by
  have positive := h.waitsFor_pos he
  have unplaced := h.not_mem_placed he
  have unqueued := h.not_mem_queue he
  refine ⟨h.known, ?_, ?_, ?_, ?_, h.legal⟩
  -- The queue grows by the target if the edge was the last one for which it waited.
  · rw [queue_release, placed_release]
    split
    · rw [← List.append_assoc, ← List.concat_eq_append]
      refine h.nodup.concat ?_
      rw [List.mem_append]
      exact not_or.2 ⟨unplaced, unqueued⟩
    · exact h.nodup
  · intro id hid
    have waits := h.waits id hid
    rw [List.countP_cons] at waits
    rw [waitsFor_release, placed_release]
    by_cases htarget : edge.target = id
    · subst htarget
      simp only [decide_true, if_true] at waits ⊢
      omega
    · simpa [htarget] using waits
  · intro id
    rw [queue_release, waitsFor_release, placed_release]
    by_cases htarget : edge.target = id
    · subst htarget
      have hid := Wiring.target_mem_ids he
      split <;> simp_all
    · have := h.queued id
      split <;> simp_all [Ne.symm htarget]
  · intro id hid
    have htarget : edge.target ≠ id := fun heq => unplaced (heq ▸ hid)
    rw [waitsFor_release, if_neg htarget]
    exact h.settled id hid

/-- Consuming some of the edges that are to be consumed leaves the others. -/
theorem consume {consumed : List Edge} (h : Balanced wiring (consumed ++ left) state)
    (within : consumed ⊆ wiring.edges) :
    Balanced wiring left (consumed.foldl (fun state edge => state.release edge.target) state) := by
  induction consumed generalizing state with
  | nil => exact h
  | cons edge consumed ih =>
      obtain ⟨he, within⟩ := List.cons_subset.1 within
      exact ih (h.release he) within

/-- Taking the first node of the queue opens all its edges. -/
theorem place {rest : List String} (h : Balanced wiring [] state) (hq : state.queue = id :: rest) :
    Balanced wiring (wiring.outgoing id)
      { state with placed := state.placed ++ [id], queue := rest } := by
  have hid : id ∈ state.queue := by simp [hq]
  obtain ⟨known, unplaced, zero⟩ := (h.queued id).1 hid
  have nodup := h.nodup
  rw [hq] at nodup
  have fresh : id ∉ rest := by
    have := (List.nodup_append.1 nodup).2.1
    exact (List.nodup_cons.1 this).1
  have waits : ∀ other ∈ wiring.ids, state.waitsFor other = wiring.openInto state.placed other := by
    simpa using h.waits
  refine ⟨?_, ?_, ?_, ?_, ?_, ?_⟩
  · intro other ho
    rcases List.mem_append.1 ho with ho | ho
    · exact h.known other ho
    · exact (List.mem_singleton.1 ho) ▸ known
  · simpa using nodup
  · intro other ho
    exact (waits other ho).trans (Wiring.openInto_place unplaced other)
  · intro other
    have queued := h.queued other
    rw [hq, List.mem_cons] at queued
    change other ∈ rest ↔ other ∈ wiring.ids ∧ other ∉ state.placed ++ [id] ∧
      state.waitsFor other = 0
    by_cases ho : other = id
    · subst ho
      simp [fresh]
    · simpa [ho] using queued
  · intro other ho
    rcases List.mem_append.1 ho with ho | ho
    · exact h.settled other ho
    · exact (List.mem_singleton.1 ho) ▸ zero
  · refine h.legal.snoc unplaced (Wiring.openInto_eq_zero_iff.1 ?_)
    rw [← waits id known]
    exact zero

end Balanced

theorem placed_foldl_release (edges : List Edge) (state : Placement) :
    (edges.foldl (fun state edge => state.release edge.target) state).placed = state.placed := by
  induction edges generalizing state with
  | nil => rfl
  | cons edge rest ih => exact (ih _).trans placed_release

theorem step?_eq_none_iff : state.step? wiring = none ↔ state.queue = [] := by
  unfold step?
  split <;> simp_all

/-- One step places the first node of the queue and keeps the invariant. -/
theorem Balanced.step {next : Placement} (h : Balanced wiring [] state)
    (hs : state.step? wiring = some next) :
    Balanced wiring [] next ∧ next.placed.length = state.placed.length + 1 := by
  unfold step? at hs
  split at hs
  · exact absurd hs (by simp)
  · rename_i id rest hq
    obtain rfl := Option.some.inj hs
    have opened := h.place hq
    rw [← List.append_nil (wiring.outgoing id)] at opened
    refine ⟨opened.consume fun edge he => (Wiring.mem_outgoing.1 he).1, ?_⟩
    rw [placed_foldl_release, List.length_append, List.length_singleton]

/-- Once all nodes are placed the queue is empty. -/
theorem Balanced.queue_eq_nil (h : Balanced wiring [] state)
    (hlength : wiring.ids.length ≤ state.placed.length) : state.queue = [] := by
  have nodup : state.placed.Nodup := (List.nodup_append.1 h.nodup).1
  have complete : state.placed.Perm wiring.ids :=
    (List.subperm_of_subset nodup h.known).perm_of_length_le hlength
  refine List.eq_nil_iff_forall_not_mem.2 fun id hid => ?_
  obtain ⟨known, unplaced, _⟩ := (h.queued id).1 hid
  exact unplaced (complete.mem_iff.2 known)

/-- Any number of steps keeps the invariant. -/
theorem Balanced.advance (count : Nat) (h : Balanced wiring [] state) :
    Balanced wiring [] (state.advance wiring count) := by
  induction count generalizing state with
  | zero => exact h
  | succ count ih =>
      rw [Placement.advance]
      cases hs : state.step? wiring with
      | none => exact h
      | some next => exact ih (h.step hs).1

/-- As long as the queue is not empty, every step places a node. -/
theorem Balanced.length_placed_advance (count : Nat) (h : Balanced wiring [] state)
    (busy : (state.advance wiring count).queue ≠ []) :
    (state.advance wiring count).placed.length = state.placed.length + count := by
  induction count generalizing state with
  | zero => rfl
  | succ count ih =>
      rw [Placement.advance] at busy ⊢
      cases hs : state.step? wiring with
      | none =>
          rw [hs] at busy
          exact absurd (step?_eq_none_iff.1 hs) busy
      | some next =>
          obtain ⟨balanced, hlength⟩ := h.step hs
          rw [hs] at busy
          have := ih balanced busy
          show (next.advance wiring count).placed.length = _
          omega

/-- As many steps as there are nodes empty the queue. -/
theorem Balanced.queue_advance (count : Nat) (h : Balanced wiring [] state)
    (hcount : wiring.ids.length ≤ state.placed.length + count) :
    (state.advance wiring count).queue = [] := by
  by_contra busy
  have hlength := h.length_placed_advance count busy
  exact busy ((h.advance count).queue_eq_nil (by omega))

end Placement

namespace Wiring

variable (wiring : Wiring) {order : List String}

theorem mem_initialQueue {id : String} :
    id ∈ wiring.initialQueue ↔ id ∈ wiring.ids ∧ wiring.incoming id = [] := by
  simp only [initialQueue, roots, ids, List.mem_map, List.mem_append, List.mem_filter,
    List.isEmpty_iff]
  constructor
  · rintro ⟨node, ⟨⟨hnode, unfed⟩, _⟩ | ⟨⟨hnode, unfed⟩, _⟩, rfl⟩
    · exact ⟨⟨node, hnode, rfl⟩, unfed⟩
    · exact ⟨⟨node, hnode, rfl⟩, unfed⟩
  · rintro ⟨⟨node, hnode, rfl⟩, unfed⟩
    cases hentry : node.type.isEntry with
    | false => exact ⟨node, .inr ⟨⟨hnode, unfed⟩, by simp [hentry]⟩, rfl⟩
    | true => exact ⟨node, .inl ⟨⟨hnode, unfed⟩, hentry⟩, rfl⟩

theorem nodup_initialQueue : wiring.initialQueue.Nodup := by
  have roots : (wiring.roots.map (·.id)).Nodup :=
    wiring.distinct.sublist (List.Sublist.map _ List.filter_sublist)
  have reordered := List.filter_append_perm (fun node : Node => node.type.isEntry) wiring.roots
  exact (reordered.map _).nodup_iff.2 roots

theorem waitsFor_initialPlacement {id : String} (h : id ∈ wiring.ids) :
    wiring.initialPlacement.waitsFor id = (wiring.incoming id).length := by
  have tabulated : wiring.inDegrees =
      Dict.ofList (wiring.ids.map fun id => (id, (wiring.incoming id).length)) := by
    simp only [inDegrees, ids, List.map_map, Function.comp_def]
  rw [Placement.waitsFor, initialPlacement, tabulated, Dict.find?_ofList_map, if_pos h]
  rfl

theorem balanced_initialPlacement : wiring.initialPlacement.Balanced wiring [] := by
  refine ⟨by simp [initialPlacement], wiring.nodup_initialQueue, ?_, ?_,
    by simp [initialPlacement], .nil wiring⟩
  · intro id hid
    exact (wiring.waitsFor_initialPlacement hid).trans openInto_nil.symm
  · intro id
    change id ∈ wiring.initialQueue ↔ id ∈ wiring.ids ∧ id ∉ [] ∧ _
    rw [mem_initialQueue]
    constructor
    · rintro ⟨hid, unfed⟩
      exact ⟨hid, by simp, by rw [waitsFor_initialPlacement wiring hid, unfed]; rfl⟩
    · rintro ⟨hid, _, zero⟩
      rw [waitsFor_initialPlacement wiring hid] at zero
      exact ⟨hid, List.length_eq_zero_iff.1 zero⟩

/-- The state when no released node is left. -/
def finalPlacement : Placement := wiring.initialPlacement.advance wiring wiring.nodes.length

theorem balanced_finalPlacement :
    wiring.finalPlacement.Balanced wiring [] ∧ wiring.finalPlacement.queue = [] := by
  have start := wiring.balanced_initialPlacement
  refine ⟨start.advance _, start.queue_advance _ ?_⟩
  simp [initialPlacement, ids]

/-- A node that is never placed is fed by another such node. -/
theorem exists_unplaced_source {id : String} (h : id ∈ wiring.ids)
    (unplaced : id ∉ wiring.finalPlacement.placed) :
    ∃ edge ∈ wiring.edges, edge.target = id ∧ edge.source ∉ wiring.finalPlacement.placed := by
  obtain ⟨balanced, exhausted⟩ := wiring.balanced_finalPlacement
  by_contra all_placed
  push Not at all_placed
  have zero : wiring.finalPlacement.waitsFor id = 0 := by
    simpa [balanced.waits id h] using openInto_eq_zero_iff.2 all_placed
  have queued := (balanced.queued id).2 ⟨h, unplaced, zero⟩
  simp [exhausted] at queued

theorem nodup_finalPlacement : wiring.finalPlacement.placed.Nodup :=
  (List.nodup_append.1 wiring.balanced_finalPlacement.1.nodup).1

theorem order_eq_ok_iff :
    wiring.order = .ok order ↔
      wiring.finalPlacement.placed = order ∧ order.Perm wiring.ids := by
  have subperm : wiring.finalPlacement.placed.Subperm wiring.ids :=
    List.subperm_of_subset wiring.nodup_finalPlacement wiring.balanced_finalPlacement.1.known
  have hlength : wiring.ids.length = wiring.nodes.length := List.length_map _
  change (if wiring.finalPlacement.placed.length < wiring.nodes.length then _ else _) = _ ↔ _
  split
  · rename_i short
    refine iff_of_false (by simp) ?_
    rintro ⟨rfl, complete⟩
    have := complete.length_eq
    omega
  · rename_i long
    constructor
    · intro h
      obtain rfl := Except.ok.inj h
      exact ⟨rfl, subperm.perm_of_length_le (by omega)⟩
    · rintro ⟨rfl, _⟩
      rfl

/-- An order lists every node once, behind the sources of all edges into it. -/
theorem order_legal (h : wiring.order = .ok order) :
    order.Perm wiring.ids ∧ wiring.Legal order := by
  obtain ⟨rfl, complete⟩ := wiring.order_eq_ok_iff.1 h
  exact ⟨complete, wiring.balanced_finalPlacement.1.legal⟩

/-- Exactly the acyclic graphs have an execution order. -/
theorem exists_order_iff_acyclic : (∃ order, wiring.order = .ok order) ↔ wiring.Acyclic := by
  constructor
  · rintro ⟨order, h⟩
    obtain ⟨complete, legal⟩ := wiring.order_legal h
    exact acyclic_of_rank order.idxOf (legal.idxOf_lt complete)
  · intro acyclic
    refine ⟨_, wiring.order_eq_ok_iff.2 ⟨rfl, ?_⟩⟩
    refine (List.perm_ext_iff_of_nodup wiring.nodup_finalPlacement wiring.nodup_ids).2 ?_
    refine fun id => ⟨wiring.balanced_finalPlacement.1.known id, fun hid => ?_⟩
    by_contra unplaced
    obtain ⟨id, ⟨hid, unplaced⟩, unfed⟩ := acyclic.exists_unfed
      (fun id => id ∈ wiring.ids ∧ id ∉ wiring.finalPlacement.placed) ⟨hid, unplaced⟩
    obtain ⟨edge, he, htarget, hsource⟩ := wiring.exists_unplaced_source hid unplaced
    exact unfed edge he htarget ⟨source_mem_ids he, hsource⟩

end Wiring

end Canvas
