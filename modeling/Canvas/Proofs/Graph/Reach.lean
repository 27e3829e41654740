import Canvas.Proofs.Graph.Walk
import Canvas.Proofs.Plan

/-!
# What a breadth-first search reaches

A vertex joins the queue when it is first seen and is left once, and when it is left all its
neighbours have been seen. So a search that ends with an empty queue has met its start and exactly
the vertices that can be reached from it, each once. It cannot end otherwise: every step leaves one
more of the finitely many vertices.

Hence the ancestors and the descendants of a node are given by the paths of the graph alone and do
not depend on the order of its edges.
-/

namespace Canvas

theorem nodup_eraseDups : (ids : List String) → ids.eraseDups.Nodup
  | [] => .nil
  | first :: rest => by
      rw [List.eraseDups_cons, List.nodup_cons]
      refine ⟨fun repeated => ?_, nodup_eraseDups _⟩
      have kept := (List.mem_filter.1 (List.mem_eraseDups.1 repeated)).2
      simp at kept
termination_by ids => ids.length
decreasing_by exact Nat.lt_succ_of_le (List.length_filter_le _ _)

theorem Reaches.reverse {next prev : String → List String} {a b : String}
    (h : Reaches prev a b) (reverse : ∀ a b, b ∈ prev a → a ∈ next b) : Reaches next b a := by
  induction h with
  | step hab => exact .step (reverse _ _ hab)
  | cons hab _ ih => exact ih.trans (.step (reverse _ _ hab))

/-- Reversing all edges reverses all paths. -/
theorem reaches_reverse {next prev : String → List String} {a b : String}
    (reverse : ∀ a b, b ∈ prev a ↔ a ∈ next b) : Reaches prev a b ↔ Reaches next b a :=
  ⟨fun h => h.reverse fun a b => (reverse a b).1, fun h => h.reverse fun a b => (reverse b a).2⟩

/-- Paths do not lead out of a set that contains the neighbours of its vertices. -/
theorem Reaches.mem {next : String → List String} {within : List String} {a b : String}
    (h : Reaches next a b) (closed : ∀ v ∈ within, next v ⊆ within) (ha : a ∈ within) :
    b ∈ within := by
  induction h with
  | step hab => exact closed _ ha hab
  | cons hab _ ih => exact ih (closed _ ha hab)

section BreadthFirst

variable {next : String → List String} {vertices done queue rest : List String}
variable {start v : String} {fuel : Nat}

/-- What is kept whenever a vertex is left and its new neighbours join the queue holds when a search
ends, if no vertex can wait any more once some number of them were left. -/
theorem breadthFirst_keeps {Keeps : List String → List String → Prop} {count : Nat}
    (step : ∀ {done v rest fresh}, fresh.Nodup →
      (∀ u, u ∈ fresh ↔ u ∈ next v ∧ u ∉ done ++ v :: rest) →
      Keeps done (v :: rest) → Keeps (done ++ [v]) (rest ++ fresh))
    (ends : ∀ {done queue}, Keeps done queue → count ≤ done.length → queue = [])
    (h : Keeps done queue) (enough : count ≤ done.length + fuel) :
    Keeps (breadthFirst next fuel done queue) [] := by
  induction fuel generalizing done queue with
  | zero =>
      obtain rfl := ends h enough
      simpa [breadthFirst] using h
  | succ fuel ih =>
      cases queue with
      | nil => exact h
      | cons v rest =>
          refine ih (step ((nodup_eraseDups _).filter _) (fun u => ?_) h) ?_
          · rw [List.mem_filter, List.mem_eraseDups, Bool.not_eq_true', List.contains_eq_mem,
              decide_eq_false_iff_not]
          · rw [List.length_append, List.length_singleton]
            omega

/-- What holds of a search in which `done` were left and `queue` wait. -/
structure Explores (next : String → List String) (vertices : List String) (start : String)
    (done queue : List String) : Prop where
  once : (done ++ queue).Nodup
  known : done ++ queue ⊆ vertices
  first : (done ++ queue).head? = some start
  reached : ∀ v ∈ done ++ queue, v = start ∨ Reaches next start v
  closed : ∀ v ∈ done, next v ⊆ done ++ queue

namespace Explores

theorem initial (h : start ∈ vertices) : Explores next vertices start [] [start] :=
  ⟨List.nodup_singleton _, List.cons_subset.2 ⟨h, List.nil_subset _⟩, rfl,
    List.forall_mem_singleton.2 (.inl rfl), fun _ hv => absurd hv List.not_mem_nil⟩

/-- Leaving the first vertex of the queue, whose neighbours join the queue unless they were seen. -/
theorem extend {fresh : List String} (closed : ∀ v ∈ vertices, next v ⊆ vertices)
    (h : Explores next vertices start done (v :: rest)) (distinct : fresh.Nodup)
    (mem_fresh : ∀ u, u ∈ fresh ↔ u ∈ next v ∧ u ∉ done ++ v :: rest) :
    Explores next vertices start (done ++ [v]) (rest ++ fresh) := by
  have seen : done ++ [v] ++ (rest ++ fresh) = (done ++ v :: rest) ++ fresh := by simp
  have hv : v ∈ done ++ v :: rest := List.mem_append_right _ List.mem_cons_self
  refine ⟨?once, ?known, ?first, ?reached, ?closed⟩
  all_goals rw [seen]
  case once =>
    rw [List.nodup_append]
    refine ⟨h.once, distinct, ?_⟩
    rintro u hu w hw rfl
    exact ((mem_fresh u).1 hw).2 hu
  case known =>
    exact List.append_subset.2 ⟨h.known, fun u hu => closed v (h.known hv) ((mem_fresh u).1 hu).1⟩
  case first =>
    rw [List.head?_append, h.first]
    rfl
  case reached =>
    refine List.forall_mem_append.2 ⟨h.reached, fun u hu => .inr ?_⟩
    exact reaches_of_edge (h.reached v hv) ((mem_fresh u).1 hu).1
  case closed =>
    intro w hw u hu
    by_cases known : u ∈ done ++ v :: rest
    · exact List.mem_append_left _ known
    · rcases List.mem_append.1 hw with hw | hw
      · exact absurd (h.closed w hw hu) known
      · rw [List.mem_singleton.1 hw] at hu
        exact List.mem_append_right _ ((mem_fresh u).2 ⟨hu, known⟩)

/-- If as many vertices were left as there are, none waits. -/
theorem queue_eq_nil (h : Explores next vertices start done queue)
    (all : vertices.length ≤ done.length) : queue = [] := by
  have bound := (List.subperm_of_subset h.once h.known).length_le
  rw [List.length_append] at bound
  exact List.length_eq_zero_iff.1 (by omega)

theorem breadthFirst (closed : ∀ v ∈ vertices, next v ⊆ vertices)
    (h : Explores next vertices start done queue) (enough : vertices.length ≤ done.length + fuel) :
    Explores next vertices start (breadthFirst next fuel done queue) [] :=
  breadthFirst_keeps (fun distinct mem_fresh h => h.extend closed distinct mem_fresh)
    (fun h all => h.queue_eq_nil all) h enough

/-- A search with nothing left to do met everything that can be reached. -/
theorem mem_iff (h : Explores next vertices start done []) :
    v ∈ done ↔ v = start ∨ Reaches next start v := by
  obtain ⟨-, -, first, reached, closed⟩ := h
  rw [List.append_nil] at first reached closed
  have hstart : start ∈ done := List.mem_of_mem_head? first
  refine ⟨reached v, ?_⟩
  rintro (rfl | path)
  · exact hstart
  · exact path.mem closed hstart

/-- Its start is what it met first, and only once. -/
theorem mem_drop_iff (h : Explores next vertices start done []) :
    v ∈ done.drop 1 ↔ v ≠ start ∧ Reaches next start v := by
  have once := h.once
  have first := h.first
  rw [List.append_nil] at once first
  obtain ⟨others, rfl⟩ := List.head?_eq_some_iff.1 first
  have fresh := (List.nodup_cons.1 once).1
  have met : v ∈ start :: others ↔ v = start ∨ Reaches next start v := h.mem_iff
  rw [List.mem_cons] at met
  rw [List.drop_succ_cons, List.drop_zero]
  constructor
  · intro hv
    have ne : v ≠ start := fun heq => fresh (heq ▸ hv)
    exact ⟨ne, (met.1 (.inr hv)).resolve_left ne⟩
  · rintro ⟨ne, path⟩
    exact (met.2 (.inr path)).resolve_left ne

end Explores

end BreadthFirst

namespace Wiring

variable {wiring : Wiring} {next : String → List String} {a b id : String} {node : Node}

theorem mem_predecessors : b ∈ wiring.predecessors a ↔ a ∈ wiring.successors b := by
  simp [predecessors, mem_incoming, mem_successors, and_assoc, and_comm]

theorem reaches_predecessors_iff : Reaches wiring.predecessors a b ↔ wiring.Leads b a :=
  reaches_reverse fun _ _ => mem_predecessors

theorem source_mem_ids_of_leads (h : wiring.Leads a b) : a ∈ wiring.ids := by
  cases h with
  | step hab =>
      obtain ⟨edge, he, rfl, -⟩ := mem_successors.1 hab
      exact source_mem_ids he
  | cons hab =>
      obtain ⟨edge, he, rfl, -⟩ := mem_successors.1 hab
      exact source_mem_ids he

theorem target_mem_ids_of_leads (h : wiring.Leads a b) : b ∈ wiring.ids := by
  induction h with
  | step hab =>
      obtain ⟨edge, he, -, rfl⟩ := mem_successors.1 hab
      exact target_mem_ids he
  | cons _ _ ih => exact ih

theorem successors_subset_ids (id : String) : wiring.successors id ⊆ wiring.ids :=
  fun _ h => target_mem_ids_of_leads (.step h)

theorem predecessors_subset_ids (id : String) : wiring.predecessors id ⊆ wiring.ids :=
  fun _ h => source_mem_ids_of_leads (.step (mem_predecessors.1 h))

/-- A search may leave as many vertices as there are. -/
theorem length_ids_le (wiring : Wiring) :
    wiring.ids.length ≤ ([] : List String).length + wiring.nodes.length := by
  rw [Wiring.ids, List.length_map]
  exact Nat.le_add_left _ _

theorem reached_of_mem (h : id ∈ wiring.ids) :
    wiring.reached next id = (breadthFirst next wiring.nodes.length [] [id]).drop 1 :=
  if_pos (List.contains_iff_mem.2 h)

theorem reached_of_not_mem (h : id ∉ wiring.ids) : wiring.reached next id = [] :=
  if_neg fun known => h (List.contains_iff_mem.1 known)

/-- A search meets, besides its start, what can be reached from it. -/
theorem mem_reached (closed : ∀ v ∈ wiring.ids, next v ⊆ wiring.ids) :
    a ∈ wiring.reached next id ↔ id ∈ wiring.ids ∧ a ≠ id ∧ Reaches next id a := by
  by_cases hid : id ∈ wiring.ids
  · have start : Explores next wiring.ids id [] [id] := .initial hid
    rw [reached_of_mem hid, (start.breadthFirst closed wiring.length_ids_le).mem_drop_iff]
    exact (and_iff_right hid).symm
  · rw [reached_of_not_mem hid]
    exact iff_of_false List.not_mem_nil fun h => hid h.1

theorem mem_nodesOf {ids : List String} :
    node ∈ wiring.nodesOf ids ↔ node ∈ wiring.nodes ∧ node.id ∈ ids := by
  simp only [nodesOf, List.mem_filterMap, node?_eq_some_iff]
  constructor
  · rintro ⟨id, hid, hnode, rfl⟩
    exact ⟨hnode, hid⟩
  · rintro ⟨hnode, hid⟩
    exact ⟨node.id, hid, hnode, rfl⟩

/-- The descendants of a node are the other nodes to which it leads. -/
theorem mem_descendants :
    node ∈ wiring.descendants id ↔
      node ∈ wiring.nodes ∧ node.id ≠ id ∧ wiring.Leads id node.id := by
  rw [descendants, mem_nodesOf, mem_reached fun id _ => successors_subset_ids id]
  exact and_congr_right fun _ => and_iff_right_of_imp fun h => source_mem_ids_of_leads h.2

/-- The ancestors of a node are the other nodes that lead there. -/
theorem mem_ancestors :
    node ∈ wiring.ancestors id ↔
      node ∈ wiring.nodes ∧ node.id ≠ id ∧ wiring.Leads node.id id := by
  rw [ancestors, mem_nodesOf, mem_reached fun id _ => predecessors_subset_ids id,
    reaches_predecessors_iff]
  exact and_congr_right fun _ => and_iff_right_of_imp fun h => target_mem_ids_of_leads h.2

end Wiring

end Canvas
