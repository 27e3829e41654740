import Canvas.Proofs.Graph.Entries
import Mathlib.Data.Prod.Lex

/-!
# Ties between nodes

Edges alone do not settle an execution order. What settles it is the moment at which a node is
released: when the last of the nodes that feed it is placed, and of the edges from there the latest
is consumed. A moment is a position in the order with the number of an edge, and moments are
compared lexicographically.

The queue keeps nodes in the order of their release, so an order lists the nodes that nothing feeds
and then the others by the moments of their release. There is only one such order, although the
moments refer to the order itself: where two orders part, the nodes that feed the next node are
placed already, at the same positions in both.
-/

namespace Canvas

namespace Wiring

variable {wiring : Wiring} {order other released rest rest' : List String} {id : String}
variable {now later moment moment' : Nat ×ₗ Nat}

/-- Whether edge number `index` is the last for which a node waits: its source stands last among the
nodes that feed the node, and no later edge leads from there to the node. -/
structure Releases (wiring : Wiring) (order : List String) (source : String) (index : Nat)
    (id : String) : Prop where
  feeds : ∃ edge, wiring.edges[index]? = some edge ∧ edge.source = source ∧ edge.target = id
  last : ∀ edge ∈ wiring.edges, edge.target = id →
    order.idxOf edge.source ≤ order.idxOf source
  latest : ∀ (other : Nat) (edge : Edge), wiring.edges[other]? = some edge →
    edge.source = source → edge.target = id → other ≤ index

/-- Whether a node is released when the node at a position is placed and the edge with a number is
consumed. -/
def ReleasedAt (wiring : Wiring) (order : List String) (id : String) (moment : Nat ×ₗ Nat) : Prop :=
  ∃ source index, wiring.Releases order source index id ∧
    moment = toLex (order.idxOf source, index)

/-- Whether one node is released before another. -/
def ReleasedBefore (wiring : Wiring) (order : List String) (a b : String) : Prop :=
  ∃ moment moment', wiring.ReleasedAt order a moment ∧ wiring.ReleasedAt order b moment' ∧
    moment < moment'

/-- The nodes into which no edge leads, either those of entry types or the others, in the order of
the nodes. -/
def unfed (wiring : Wiring) (entry : Bool) : List String :=
  (wiring.nodes.filter fun node =>
    node.type.isEntry = entry ∧ ∀ edge ∈ wiring.edges, edge.target ≠ node.id).map (·.id)

/-- Whether an order begins with the nodes that nothing feeds, entry nodes first, and goes on with
the others in the order of their release. -/
structure ByRelease (wiring : Wiring) (order : List String) : Prop where
  complete : order.Perm wiring.ids
  legal : wiring.Legal order
  released : ∃ rest, order = wiring.unfed true ++ wiring.unfed false ++ rest ∧
    rest.Pairwise (wiring.ReleasedBefore order)

theorem initialQueue_eq_unfed (wiring : Wiring) :
    wiring.initialQueue = wiring.unfed true ++ wiring.unfed false := by
  have none (node : Node) : (wiring.incoming node.id).isEmpty = true ↔
      ∀ edge ∈ wiring.edges, edge.target ≠ node.id := by
    simp [incoming]
  rw [initialQueue, roots, unfed, unfed, List.filter_filter, List.filter_filter, List.map_append]
  congr 2
  · refine List.filter_congr fun node _ => ?_
    rw [Bool.eq_iff_iff, Bool.and_eq_true, decide_eq_true_iff, none]
  · refine List.filter_congr fun node _ => ?_
    rw [Bool.eq_iff_iff, Bool.and_eq_true, decide_eq_true_iff, Bool.not_eq_true', none]

/-- Whether nodes are listed in the order of their release, and all of them were released by now. -/
structure Chronological (wiring : Wiring) (order : List String) (now : Nat ×ₗ Nat)
    (released : List String) : Prop where
  pairwise : released.Pairwise (wiring.ReleasedBefore order)
  past : ∀ id ∈ released, ∃ moment < now, wiring.ReleasedAt order id moment

namespace Chronological

theorem nil (wiring : Wiring) (order : List String) (now : Nat ×ₗ Nat) :
    wiring.Chronological order now [] :=
  ⟨.nil, fun _ h => absurd h List.not_mem_nil⟩

theorem mono (h : wiring.Chronological order now released) (le : now ≤ later) :
    wiring.Chronological order later released := by
  refine ⟨h.pairwise, fun id hid => ?_⟩
  obtain ⟨moment, lt, at_⟩ := h.past id hid
  exact ⟨moment, lt.trans_le le, at_⟩

/-- What is released now stands behind what was released before. -/
theorem snoc (h : wiring.Chronological order now released) (at_ : wiring.ReleasedAt order id now)
    (lt : now < later) : wiring.Chronological order later (released ++ [id]) := by
  constructor
  · refine List.pairwise_append.2 ⟨h.pairwise, List.pairwise_singleton _ _, ?_⟩
    intro earlier he last hl
    obtain rfl := List.mem_singleton.1 hl
    obtain ⟨moment, past, released⟩ := h.past earlier he
    exact ⟨moment, now, released, at_, past⟩
  · refine List.forall_mem_append.2 ⟨(h.mono lt.le).past, ?_⟩
    exact List.forall_mem_singleton.2 ⟨now, lt, at_⟩

end Chronological

end Wiring

namespace Placement

variable {wiring : Wiring} {state next : Placement} {order earlier : List String}
variable {before after left : List Edge} {edge : Edge} {id : String} {now later : Nat ×ₗ Nat}

/-- Whether a state holds, behind the nodes that are released at the start, what was released by
now, in this order. -/
def OnTime (wiring : Wiring) (order : List String) (now : Nat ×ₗ Nat) (state : Placement) : Prop :=
  ∃ rest, state.released = wiring.initialQueue ++ rest ∧ wiring.Chronological order now rest

theorem OnTime.mono (h : state.OnTime wiring order now) (le : now ≤ later) :
    state.OnTime wiring order later := by
  obtain ⟨rest, released, chronological⟩ := h
  exact ⟨rest, released, chronological.mono le⟩

/-- If all edges into a node are consumed with an edge of the node placed last, that edge releases
it. -/
theorem Balanced.releases (h : Balanced wiring (after.filter (·.source = edge.source)) state)
    (split : wiring.edges = before ++ edge :: after)
    (placed : state.placed = earlier ++ [edge.source])
    (within : state.placed <+: order) (zero : state.waitsFor edge.target = 0) :
    wiring.ReleasedAt order edge.target (toLex (earlier.length, before.length)) := by
  have he : edge ∈ wiring.edges := by simp [split]
  have waits := h.waits _ (Wiring.target_mem_ids he)
  rw [zero] at waits
  have closed : wiring.openInto state.placed edge.target = 0 := by omega
  have consumed : (after.filter (·.source = edge.source)).countP (·.target = edge.target) = 0 := by
    omega
  obtain ⟨behind, rfl⟩ := within
  have once := (List.nodup_append.1 h.nodup).1
  rw [placed] at once
  have fresh : edge.source ∉ earlier := fun repeated =>
    (List.nodup_append.1 once).2.2 _ repeated _ (List.mem_singleton_self _) rfl
  have position : (state.placed ++ behind).idxOf edge.source = earlier.length := by
    rw [placed, List.append_assoc, List.idxOf_append_of_notMem fresh]
    simp
  refine ⟨edge.source, before.length, ⟨⟨edge, by simp [split], rfl, rfl⟩, ?last, ?latest⟩, ?moment⟩
  case last =>
    intro other ho htarget
    have known := Wiring.openInto_eq_zero_iff.1 closed other ho htarget
    have bound := List.idxOf_lt_length_of_mem known
    rw [position, List.idxOf_append_of_mem known]
    rw [placed, List.length_append, List.length_singleton] at bound
    rw [placed]
    exact Nat.le_of_lt_succ bound
  case latest =>
    intro number other ho hsource htarget
    by_contra late
    obtain ⟨k, rfl⟩ := Nat.exists_eq_add_of_lt (Nat.lt_of_not_le late)
    rw [split, Nat.add_assoc, List.getElem?_append_right (Nat.le_add_right _ _),
      Nat.add_sub_cancel_left, List.getElem?_cons_succ] at ho
    have unconsumed : other ∈ after.filter (·.source = edge.source) :=
      List.mem_filter.2 ⟨List.mem_of_getElem? ho, decide_eq_true hsource⟩
    exact List.countP_eq_zero.1 consumed other unconsumed (decide_eq_true htarget)
  case moment => rw [position]

/-- Consuming an edge of the node placed last takes one moment. -/
theorem OnTime.release (h : state.OnTime wiring order (toLex (earlier.length, before.length)))
    (balanced : Balanced wiring (edge :: after.filter (·.source = edge.source)) state)
    (split : wiring.edges = before ++ edge :: after)
    (placed : state.placed = earlier ++ [edge.source])
    (within : state.placed <+: order) :
    (state.release edge.target).OnTime wiring order
      (toLex (earlier.length, before.length + 1)) := by
  have he : edge ∈ wiring.edges := by simp [split]
  have tick : toLex (earlier.length, before.length) < toLex (earlier.length, before.length + 1) :=
    Prod.Lex.toLex_lt_toLex.2 (.inr ⟨rfl, Nat.lt_succ_self _⟩)
  obtain ⟨rest, released, chronological⟩ := h
  by_cases zero : state.waitsFor edge.target - 1 = 0
  · have at_ := (balanced.release he).releases split placed within
      ((waitsFor_release state _ _).trans ((if_pos rfl).trans zero))
    refine ⟨rest ++ [edge.target], ?_, chronological.snoc at_ tick⟩
    rw [Placement.released, placed_release, queue_release, if_pos zero, ← List.append_assoc,
      ← List.append_assoc, ← released]
    rfl
  · refine ⟨rest, ?_, chronological.mono tick.le⟩
    rw [← released, Placement.released, placed_release, queue_release, if_neg zero]
    rfl

/-- Consuming all edges of the node placed last, in the order of the edges. -/
theorem OnTime.release_all {source : String}
    (h : state.OnTime wiring order (toLex (earlier.length, before.length)))
    (balanced : Balanced wiring (after.filter (·.source = source)) state)
    (split : wiring.edges = before ++ after) (placed : state.placed = earlier ++ [source])
    (within : state.placed <+: order) :
    ((after.filter (·.source = source)).foldl (fun state edge => state.release edge.target)
      state).OnTime wiring order (toLex (earlier.length, wiring.edges.length)) := by
  induction after generalizing before state with
  | nil =>
      rw [split, List.append_nil]
      exact h
  | cons edge after ih =>
      have rest : wiring.edges = (before ++ [edge]) ++ after := by simp [split]
      have number : (before ++ [edge]).length = before.length + 1 := List.length_append
      by_cases own : edge.source = source
      · subst own
        have taken : (edge :: after).filter (·.source = edge.source) =
            edge :: after.filter (·.source = edge.source) := by simp
        rw [taken] at balanced ⊢
        have he : edge ∈ wiring.edges := by simp [split]
        refine ih ?_ (balanced.release he) rest placed within
        rw [number]
        exact h.release balanced split placed within
      · rw [List.filter_cons_of_neg (by simpa using own)] at balanced ⊢
        refine ih (h.mono ?_) balanced rest placed within
        rw [number]
        exact Prod.Lex.toLex_le_toLex.2 (.inr ⟨rfl, Nat.le_succ _⟩)

/-- Placing one node takes the moments of its position. -/
theorem OnTime.step (h : state.OnTime wiring order (toLex (state.placed.length, 0)))
    (balanced : Balanced wiring [] state) (hs : state.step? wiring = some next)
    (within : next.placed <+: order) :
    next.OnTime wiring order (toLex (next.placed.length, 0)) := by
  have length := (balanced.step hs).2
  unfold step? at hs
  split at hs
  · contradiction
  · rename_i id queue hq
    obtain rfl := Option.some.inj hs
    let placed : Placement := { state with placed := state.placed ++ [id], queue }
    have moved : placed.released = state.released := by
      rw [Placement.released, Placement.released, hq]
      exact (List.append_cons state.placed id queue).symm
    have start :
        placed.OnTime wiring order (toLex (state.placed.length, ([] : List Edge).length)) := by
      obtain ⟨rest, released, chronological⟩ := h
      exact ⟨rest, moved.trans released, chronological⟩
    rw [placed_foldl_release] at within
    refine (start.release_all (balanced.place hq) rfl rfl within).mono ?_
    rw [length]
    exact Prod.Lex.toLex_le_toLex.2 (.inl (Nat.lt_succ_self _))

theorem OnTime.advance (count : Nat)
    (h : state.OnTime wiring order (toLex (state.placed.length, 0)))
    (balanced : Balanced wiring [] state)
    (within : (state.advance wiring count).released <+: order) :
    ∃ now, (state.advance wiring count).OnTime wiring order now := by
  induction count generalizing state with
  | zero => exact ⟨_, h⟩
  | succ count ih =>
      rw [Placement.advance] at within ⊢
      cases hs : state.step? wiring with
      | none => exact ⟨_, h⟩
      | some next =>
          rw [hs] at within
          have placed : next.placed <+: order :=
            (List.prefix_append _ _).trans ((released_advance wiring count next).trans within)
          exact ih (h.step balanced hs placed) (balanced.step hs).1 within

end Placement

namespace Wiring

variable {wiring : Wiring} {order other : List String} {id : String}
variable {moment moment' : Nat ×ₗ Nat}

/-- The order that is found lists nodes by their release. -/
theorem byRelease_order (h : wiring.order = .ok order) : wiring.ByRelease order := by
  obtain ⟨complete, legal⟩ := wiring.order_legal h
  obtain ⟨rfl, -⟩ := wiring.order_eq_ok_iff.1 h
  obtain ⟨balanced, exhausted⟩ := wiring.balanced_finalPlacement
  have all : wiring.finalPlacement.released = wiring.finalPlacement.placed := by
    rw [Placement.released, exhausted, List.append_nil]
  have start : wiring.initialPlacement.OnTime wiring wiring.finalPlacement.placed (toLex (0, 0)) :=
    ⟨[], (List.append_nil _).symm, .nil _ _ _⟩
  obtain ⟨now, rest, released, chronological⟩ :=
    start.advance wiring.nodes.length wiring.balanced_initialPlacement (all ▸ List.prefix_refl _)
  refine ⟨complete, legal, rest, ?_, chronological.pairwise⟩
  rw [← initialQueue_eq_unfed, ← released]
  exact all.symm

/-- The moment at which a node is released is the same in two orders that have the nodes that feed
it at the same positions. -/
theorem ReleasedAt.unique (complete : order.Perm wiring.ids)
    (same : ∀ edge ∈ wiring.edges, edge.target = id →
      order.idxOf edge.source = other.idxOf edge.source)
    (h : wiring.ReleasedAt order id moment) (h' : wiring.ReleasedAt other id moment') :
    moment = moment' := by
  obtain ⟨source, index, ⟨⟨edge, number, rfl, rfl⟩, last, latest⟩, rfl⟩ := h
  obtain ⟨source', index', ⟨⟨edge', number', rfl, target'⟩, last', latest'⟩, rfl⟩ := h'
  have he := List.mem_of_getElem? number
  have he' := List.mem_of_getElem? number'
  have position : order.idxOf edge.source = order.idxOf edge'.source := by
    have le := last edge' he' target'
    have ge := last' edge he rfl
    rw [← same edge he rfl, ← same edge' he' target'] at ge
    exact Nat.le_antisymm ge le
  have source : edge.source = edge'.source :=
    (List.idxOf_inj (complete.mem_iff.2 (source_mem_ids he))).1 position
  have index : index = index' :=
    Nat.le_antisymm (latest' index edge number source rfl)
      (latest index' edge' number' source.symm target')
  rw [index, position, same edge' he' target']

namespace ByRelease

variable {common behind behind' : List String} {id' : String}

theorem not_mem (h : wiring.ByRelease (common ++ id :: behind)) : id ∉ common := fun repeated =>
  (List.nodup_append.1 (h.complete.nodup_iff.2 wiring.nodup_ids)).2.2 _ repeated _
    List.mem_cons_self rfl

/-- A node of an order is fed from what stands before it. -/
theorem source_mem (h : wiring.ByRelease (common ++ id :: behind)) :
    ∀ edge ∈ wiring.edges, edge.target = id → edge.source ∈ common := by
  rintro edge he rfl
  have early := h.legal edge he (List.mem_append_right _ List.mem_cons_self)
  rw [List.idxOf_append_of_notMem h.not_mem, List.idxOf_cons_self, Nat.add_zero] at early
  by_contra unplaced
  rw [List.idxOf_append_of_notMem unplaced] at early
  exact absurd early (Nat.not_lt_of_le (Nat.le_add_right _ _))

/-- Where two orders part, the next node of one stands further back in the other. -/
theorem releasedBefore_next (h : wiring.ByRelease (common ++ id :: behind))
    (h' : wiring.ByRelease (common ++ id' :: behind')) (ne : id' ≠ id)
    (released : (id :: behind).Pairwise (wiring.ReleasedBefore (common ++ id :: behind))) :
    wiring.ReleasedBefore (common ++ id :: behind) id id' := by
  have listed : id' ∈ common ++ id :: behind :=
    (h.complete.trans h'.complete.symm).mem_iff.2 (List.mem_append_right _ List.mem_cons_self)
  have back : id' ∈ behind := by simpa [h'.not_mem, ne] using listed
  exact List.rel_of_pairwise_cons released back

/-- Two orders do not part, for what feeds the next nodes stands in the common beginning. -/
theorem next_eq (h : wiring.ByRelease (common ++ id :: behind))
    (h' : wiring.ByRelease (common ++ id' :: behind'))
    (released : (id :: behind).Pairwise (wiring.ReleasedBefore (common ++ id :: behind)))
    (released' : (id' :: behind').Pairwise (wiring.ReleasedBefore (common ++ id' :: behind'))) :
    id = id' := by
  by_contra ne
  obtain ⟨early, late, at_, later, before⟩ := h.releasedBefore_next h' (Ne.symm ne) released
  obtain ⟨early', late', at', later', before'⟩ := h'.releasedBefore_next h ne released'
  have same {source : String} (placed : source ∈ common) :
      (common ++ id :: behind).idxOf source = (common ++ id' :: behind').idxOf source := by
    rw [List.idxOf_append_of_mem placed, List.idxOf_append_of_mem placed]
  have first : early = late' :=
    at_.unique h.complete (fun edge he target => same (h.source_mem edge he target)) later'
  have second : late = early' :=
    later.unique h.complete (fun edge he target => same (h'.source_mem edge he target)) at'
  rw [← first, ← second] at before'
  exact lt_asymm before before'

theorem eq_of_append {rest rest' : List String} (h : wiring.ByRelease (common ++ rest))
    (h' : wiring.ByRelease (common ++ rest'))
    (released : rest.Pairwise (wiring.ReleasedBefore (common ++ rest)))
    (released' : rest'.Pairwise (wiring.ReleasedBefore (common ++ rest'))) : rest = rest' := by
  have length : rest.length = rest'.length := by
    have perm := (List.perm_append_left_iff common).1 (h.complete.trans h'.complete.symm)
    exact perm.length_eq
  induction rest generalizing common rest' with
  | nil => exact (List.length_eq_zero_iff.1 length.symm).symm
  | cons id rest ih =>
      cases rest' with
      | nil => contradiction
      | cons id' rest' =>
          obtain rfl := h.next_eq h' released released'
          rw [List.append_cons] at h h' released released'
          rw [ih h h' released.of_cons released'.of_cons (Nat.succ.inj length)]

/-- There is one order of release at most. -/
theorem unique (h : wiring.ByRelease order) (h' : wiring.ByRelease other) : order = other := by
  obtain ⟨rest, split, released⟩ := h.released
  obtain ⟨rest', split', released'⟩ := h'.released
  subst split split'
  rw [eq_of_append h h' released released']

end ByRelease

/-- The execution order of a graph is the one that lists the nodes that nothing feeds, entry nodes
first, and then every other node in the order of the last nodes that feed it, or of the last edges
from there if several nodes have that node in common. If there is no such order, none is found. -/
theorem order_eq_ok_iff_byRelease (wiring : Wiring) (order : List String) :
    wiring.order = .ok order ↔ wiring.ByRelease order := by
  refine ⟨byRelease_order, fun h => ?_⟩
  obtain ⟨found, ordered⟩ :=
    wiring.exists_order_iff_acyclic.2 (acyclic_of_rank order.idxOf (h.legal.idxOf_lt h.complete))
  rw [ordered, (byRelease_order ordered).unique h]

/-- A second edge to the node that was drawn first puts it behind the other. -/
example :
    let graph : Graph := ⟨[.ofId "first" .hyde, .ofId "second" .agent, .ofId "question" .query],
      [⟨"e1", "question", "first"⟩, ⟨"e2", "question", "second"⟩, ⟨"e3", "question", "first"⟩]⟩
    (Wiring.lenient graph).order = .ok ["question", "second", "first"] := by
  decide

end Wiring

end Canvas
