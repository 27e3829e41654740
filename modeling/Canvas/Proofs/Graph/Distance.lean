import Canvas.Proofs.Graph.Reach
import Mathlib.Order.Lattice.Nat

/-!
# Distances

The distance between two vertices is the length of a shortest path. A breadth-first search meets the
vertices in the order of their distances from its start. The invariant behind this is that the
vertices seen so far spread over no more than one distance beyond each vertex that waits, and that a
vertex as near as the one to be left next has been seen already. So whatever joins the queue is one
step farther away than the vertex that is left.

Ancestors are found by the same search along reversed edges, which keeps all distances.
-/

namespace Canvas

/-- Whether a path with some number of steps leads from one vertex to another. -/
inductive ReachesIn (next : String → List String) : Nat → String → String → Prop where
  | refl (a : String) : ReachesIn next 0 a a
  | snoc {steps : Nat} {a b c : String} :
      ReachesIn next steps a b → c ∈ next b → ReachesIn next (steps + 1) a c

/-- The number of steps on a shortest path from one vertex to another. -/
noncomputable def distance (next : String → List String) (a b : String) : Nat :=
  sInf {steps | ReachesIn next steps a b}

section Paths

variable {next prev : String → List String} {a b c start : String} {steps : Nat}

theorem ReachesIn.cons (edge : b ∈ next a) (h : ReachesIn next steps b c) :
    ReachesIn next (steps + 1) a c := by
  induction h with
  | refl => exact .snoc (.refl a) edge
  | snoc _ last ih => exact .snoc (ih edge) last

theorem exists_reachesIn_iff : (∃ steps, ReachesIn next steps a b) ↔ b = a ∨ Reaches next a b := by
  constructor
  · rintro ⟨steps, h⟩
    induction h with
    | refl => exact .inl rfl
    | snoc _ last ih => exact .inr (reaches_of_edge ih last)
  · rintro (rfl | path)
    · exact ⟨0, .refl b⟩
    · induction path with
      | step edge => exact ⟨1, .snoc (.refl _) edge⟩
      | cons edge _ ih =>
          obtain ⟨steps, h⟩ := ih
          exact ⟨steps + 1, h.cons edge⟩

theorem ReachesIn.reverse (h : ReachesIn prev steps a b)
    (reverse : ∀ a b, b ∈ prev a → a ∈ next b) : ReachesIn next steps b a := by
  induction h with
  | refl => exact .refl _
  | snoc _ last ih => exact ih.cons (reverse _ _ last)

/-- Reversing all edges keeps the lengths of all paths. -/
theorem reachesIn_reverse (reverse : ∀ a b, b ∈ prev a ↔ a ∈ next b) :
    ReachesIn prev steps a b ↔ ReachesIn next steps b a :=
  ⟨fun h => h.reverse fun a b => (reverse a b).1, fun h => h.reverse fun a b => (reverse b a).2⟩

theorem distance_reverse (reverse : ∀ a b, b ∈ prev a ↔ a ∈ next b) :
    distance prev a b = distance next b a := by
  simp only [distance, reachesIn_reverse reverse]

theorem distance_le (h : ReachesIn next steps a b) : distance next a b ≤ steps := Nat.sInf_le h

theorem reachesIn_distance (h : b = a ∨ Reaches next a b) :
    ReachesIn next (distance next a b) a b :=
  Nat.sInf_mem (exists_reachesIn_iff.2 h)

/-- An edge leads at most one step farther away. -/
theorem distance_le_succ (h : a = start ∨ Reaches next start a) (edge : b ∈ next a) :
    distance next start b ≤ distance next start a + 1 :=
  distance_le ((reachesIn_distance h).snoc edge)

/-- A vertex other than the start is reached from one that is nearer. -/
theorem exists_nearer (h : b = start ∨ Reaches next start b) (other : b ≠ start) :
    ∃ a, (a = start ∨ Reaches next start a) ∧ b ∈ next a ∧
      distance next start a < distance next start b := by
  have path := reachesIn_distance h
  generalize distance next start b = steps at path
  cases path with
  | refl => exact absurd rfl other
  | snoc earlier last =>
      exact ⟨_, exists_reachesIn_iff.1 ⟨_, earlier⟩, last, Nat.lt_succ_of_le (distance_le earlier)⟩

end Paths

section BreadthFirst

variable {next : String → List String} {vertices done queue rest : List String}
variable {start u v : String} {fuel : Nat}

/-- What holds besides of a search in which `done` were left and `queue` wait: nearer vertices were
seen first, and none of them is more than one step farther away than one that waits. -/
structure Layers (next : String → List String) (vertices : List String) (start : String)
    (done queue : List String) : Prop extends Explores next vertices start done queue where
  ordered : (done ++ queue).Pairwise fun a b => distance next start a ≤ distance next start b
  spread : ∀ v ∈ queue, ∀ u ∈ done ++ queue,
    distance next start u ≤ distance next start v + 1

namespace Layers

theorem initial (h : start ∈ vertices) : Layers next vertices start [] [start] :=
  { Explores.initial h with
    ordered := List.pairwise_singleton _ _
    spread := by
      intro v hv u hu
      rw [List.mem_singleton.1 hv, List.mem_singleton.1 hu]
      exact Nat.le_succ _ }

/-- No vertex that waits is nearer than the first one. -/
theorem distance_le_of_mem (h : Layers next vertices start done (v :: rest))
    (hu : u ∈ v :: rest) : distance next start v ≤ distance next start u := by
  rcases List.mem_cons.1 hu with rfl | hu
  · exact Nat.le_refl _
  · exact List.rel_of_pairwise_cons (List.pairwise_append.1 h.ordered).2.1 hu

/-- Whatever is as near as the vertex to be left next has been seen. -/
theorem mem_of_distance_le (h : Layers next vertices start done (v :: rest)) {u : String}
    (reached : u = start ∨ Reaches next start u)
    (near : distance next start u ≤ distance next start v) : u ∈ done ++ v :: rest := by
  by_cases other : u = start
  · rw [other]
    exact List.mem_of_mem_head? h.first
  · obtain ⟨a, ha, edge, nearer⟩ := exists_nearer reached other
    have seen : a ∈ done ++ v :: rest :=
      h.mem_of_distance_le ha (Nat.le_of_lt (Nat.lt_of_lt_of_le nearer near))
    rcases List.mem_append.1 seen with left | waits
    · exact h.closed a left edge
    · have far := h.distance_le_of_mem waits
      omega
termination_by distance next start u

/-- Leaving the first vertex of the queue: its new neighbours are one step farther away. -/
theorem extend {fresh : List String} (closed : ∀ v ∈ vertices, next v ⊆ vertices)
    (h : Layers next vertices start done (v :: rest)) (distinct : fresh.Nodup)
    (mem_fresh : ∀ u, u ∈ fresh ↔ u ∈ next v ∧ u ∉ done ++ v :: rest) :
    Layers next vertices start (done ++ [v]) (rest ++ fresh) := by
  have seen : done ++ [v] ++ (rest ++ fresh) = (done ++ v :: rest) ++ fresh := by simp
  have hv : v ∈ done ++ v :: rest := List.mem_append_right _ List.mem_cons_self
  have known : ∀ u ∈ done ++ v :: rest, distance next start u ≤ distance next start v + 1 :=
    h.spread v List.mem_cons_self
  have new : ∀ u ∈ fresh, distance next start u = distance next start v + 1 := by
    intro u hu
    obtain ⟨edge, unseen⟩ := (mem_fresh u).1 hu
    have bound := distance_le_succ (h.reached v hv) edge
    have reached : Reaches next start u := reaches_of_edge (h.reached v hv) edge
    have farther : ¬ distance next start u ≤ distance next start v :=
      fun near => unseen (h.mem_of_distance_le (.inr reached) near)
    omega
  have all : ∀ u ∈ (done ++ v :: rest) ++ fresh,
      distance next start u ≤ distance next start v + 1 :=
    List.forall_mem_append.2 ⟨known, fun u hu => Nat.le_of_eq (new u hu)⟩
  refine { h.toExplores.extend closed distinct mem_fresh with ordered := ?_, spread := ?_ }
  · rw [seen, List.pairwise_append]
    refine ⟨h.ordered, List.pairwise_of_forall_mem_list fun a ha b hb => ?_, fun a ha b hb => ?_⟩
    · rw [new a ha, new b hb]
    · rw [new b hb]
      exact known a ha
  · rw [seen]
    intro w hw u hu
    have far : distance next start v ≤ distance next start w := by
      rcases List.mem_append.1 hw with hw | hw
      · exact h.distance_le_of_mem (List.mem_cons_of_mem _ hw)
      · rw [new w hw]
        exact Nat.le_succ _
    exact Nat.le_trans (all u hu) (Nat.succ_le_succ far)

theorem breadthFirst (closed : ∀ v ∈ vertices, next v ⊆ vertices)
    (h : Layers next vertices start done queue) (enough : vertices.length ≤ done.length + fuel) :
    Layers next vertices start (breadthFirst next fuel done queue) [] :=
  breadthFirst_keeps (fun distinct mem_fresh h => h.extend closed distinct mem_fresh)
    (fun h all => h.queue_eq_nil all) h enough

end Layers

end BreadthFirst

/-- Whether a list has exactly the nodes that satisfy a condition, each once and nearer ones
first. -/
structure NearestFirst (nodes : List Node) (found : Node → Prop) (away : Node → Nat) : Prop where
  once : (nodes.map (·.id)).Nodup
  exact : ∀ node, node ∈ nodes ↔ found node
  ordered : nodes.Pairwise fun a b => away a ≤ away b

namespace Wiring

variable {wiring : Wiring} {next : String → List String}

/-- The number of edges on a shortest path from one node to another. -/
noncomputable def distance (wiring : Wiring) (a b : String) : Nat :=
  Canvas.distance wiring.successors a b

theorem distance_predecessors (wiring : Wiring) (a b : String) :
    Canvas.distance wiring.predecessors a b = wiring.distance b a :=
  distance_reverse fun _ _ => mem_predecessors

/-- A search meets every node but once, and those that are nearer to its start first. -/
theorem reached_nearest_first (id : String)
    (closed : ∀ v ∈ wiring.ids, next v ⊆ wiring.ids) :
    (wiring.reached next id).Nodup ∧
    (wiring.reached next id).Pairwise fun a b =>
      Canvas.distance next id a ≤ Canvas.distance next id b := by
  by_cases hid : id ∈ wiring.ids
  · have start : Layers next wiring.ids id [] [id] := .initial hid
    obtain ⟨⟨once, -, -, -, -⟩, ordered, -⟩ := start.breadthFirst closed wiring.length_ids_le
    rw [List.append_nil] at once ordered
    rw [reached_of_mem hid]
    exact ⟨once.sublist (List.drop_sublist _ _), ordered.sublist (List.drop_sublist _ _)⟩
  · rw [reached_of_not_mem hid]
    exact ⟨.nil, .nil⟩

theorem nodesOf_reached_nearest_first (id : String)
    (closed : ∀ v ∈ wiring.ids, next v ⊆ wiring.ids) :
    ((wiring.nodesOf (wiring.reached next id)).map (·.id)).Nodup ∧
    (wiring.nodesOf (wiring.reached next id)).Pairwise fun a b =>
      Canvas.distance next id a.id ≤ Canvas.distance next id b.id := by
  have known : wiring.reached next id ⊆ wiring.ids := by
    intro a ha
    obtain ⟨hid, -, path⟩ := (mem_reached closed).1 ha
    exact path.mem closed hid
  obtain ⟨once, ordered⟩ := reached_nearest_first id closed
  rw [← map_id_nodesOf known] at once ordered
  rw [List.pairwise_map] at ordered
  exact ⟨once, ordered⟩

/-- Descendants and ancestors are given by the paths of a graph, whatever cycles it has, and stand
in the order of their distances. One node is an ancestor of another exactly if that is a descendant
of the first. -/
theorem kin_nearest_first (wiring : Wiring) (id : String) :
    NearestFirst (wiring.descendants id)
      (fun node => node ∈ wiring.nodes ∧ node.id ≠ id ∧ wiring.Leads id node.id)
      (fun node => wiring.distance id node.id) ∧
    NearestFirst (wiring.ancestors id)
      (fun node => node ∈ wiring.nodes ∧ node.id ≠ id ∧ wiring.Leads node.id id)
      (fun node => wiring.distance node.id id) ∧
    (id ∉ wiring.ids → wiring.descendants id = [] ∧ wiring.ancestors id = []) ∧
    ∀ a ∈ wiring.nodes, ∀ b ∈ wiring.nodes,
      (a ∈ wiring.ancestors b.id ↔ b ∈ wiring.descendants a.id) := by
  refine ⟨?descendants, ?ancestors, ?unknown, ?converse⟩
  case descendants =>
    obtain ⟨once, ordered⟩ :=
      nodesOf_reached_nearest_first id fun id _ => wiring.successors_subset_ids id
    exact ⟨once, fun _ => mem_descendants, ordered⟩
  case ancestors =>
    obtain ⟨once, ordered⟩ :=
      nodesOf_reached_nearest_first id fun id _ => wiring.predecessors_subset_ids id
    simp only [distance_predecessors] at ordered
    exact ⟨once, fun _ => mem_ancestors, ordered⟩
  case unknown =>
    intro unknown
    rw [descendants, ancestors, reached_of_not_mem unknown, reached_of_not_mem unknown]
    exact ⟨rfl, rfl⟩
  case converse =>
    intro a ha b hb
    rw [mem_ancestors, mem_descendants, and_iff_right ha, and_iff_right hb, ne_comm]

/-- Around a cycle the nodes behind a node are also those ahead of it, in the other order. An edge
that is drawn twice makes no difference. -/
theorem kin_around_cycle :
    let first : Node := .ofId "first" .agent
    let third : Node := .ofId "third" .agent
    let wiring : Wiring :=
      ⟨[first, .ofId "second" .agent, third],
        [⟨"e1", "first", "second"⟩, ⟨"e2", "first", "second"⟩, ⟨"e3", "second", "third"⟩,
          ⟨"e4", "third", "first"⟩], by decide, by decide⟩
    ("elsewhere" ∉ wiring.ids ∧ first ∈ wiring.nodes ∧ third ∈ wiring.nodes) ∧
      (wiring.descendants "elsewhere" = [] ∧ wiring.ancestors "elsewhere" = []) ∧
      (first ∈ wiring.ancestors "third" ↔ third ∈ wiring.descendants "first") ∧
      (wiring.descendants "first").map (·.id) = ["second", "third"] ∧
      (wiring.ancestors "first").map (·.id) = ["third", "second"] := by
  intro first third wiring
  have absent : "elsewhere" ∉ wiring.ids := by decide
  have hfirst : first ∈ wiring.nodes := by simp [wiring]
  have hthird : third ∈ wiring.nodes := by simp [wiring]
  obtain ⟨-, -, unknown, converse⟩ := wiring.kin_nearest_first "elsewhere"
  exact ⟨⟨absent, hfirst, hthird⟩, unknown absent, converse first hfirst third hthird,
    by decide +kernel, by decide +kernel⟩

end Wiring

end Canvas
