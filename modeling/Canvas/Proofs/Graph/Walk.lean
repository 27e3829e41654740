import Canvas.Graph.Reach
import Mathlib.Data.Fintype.EquivFin
import Mathlib.Data.Set.Finite.List
import Mathlib.Order.WellFounded

/-!
# Walks and cycles

A walk is a list of edges, each of which starts where the one before it ends. `Wiring.Leads` says
that there is a walk along the edges of a graph, and a cycle is a walk back to its start.

Two facts carry the theorems on execution orders. Edges that climb along a rank close no cycle, and
a set of nodes each of which is fed from within the set lies behind a cycle.
-/

namespace Canvas

theorem Reaches.trans {next : String → List String} {a b c : String} (first : Reaches next a b)
    (second : Reaches next b c) : Reaches next a c := by
  induction first with
  | step hab => exact .cons hab second
  | cons hab _ ih => exact .cons hab (ih second)

/-- An edge leads on from wherever a path, or none, has led. -/
theorem reaches_of_edge {next : String → List String} {a b c : String}
    (h : b = a ∨ Reaches next a b) (edge : c ∈ next b) : Reaches next a c := by
  rcases h with rfl | path
  · exact .step edge
  · exact path.trans (.step edge)

/-- A nonempty list of edges, each of which starts where the one before it ends. -/
inductive Walk : String → List Edge → String → Prop where
  | single (edge : Edge) : Walk edge.source [edge] edge.target
  | cons (edge : Edge) {walk : List Edge} {b : String} :
      Walk edge.target walk b → Walk edge.source (edge :: walk) b

theorem Walk.append {a b c : String} {walk rest : List Edge} (first : Walk a walk b)
    (second : Walk b rest c) : Walk a (walk ++ rest) c := by
  induction first with
  | single edge => exact .cons edge second
  | cons edge _ ih => exact .cons edge (ih second)

/-- A rank that grows along each edge of a walk grows along the walk. -/
theorem Walk.rank_lt {a b : String} {walk : List Edge} (h : Walk a walk b) (rank : String → Nat)
    (climbs : ∀ edge ∈ walk, rank edge.source < rank edge.target) : rank a < rank b := by
  induction h with
  | single edge => exact climbs edge (by simp)
  | cons edge _ ih =>
      have first : rank edge.source < rank edge.target := climbs edge (by simp)
      exact Nat.lt_trans first (ih fun other ho => climbs other (List.mem_cons_of_mem _ ho))

theorem Walk.exists_first {a b : String} {walk : List Edge} (h : Walk a walk b) :
    ∃ edge ∈ walk, edge.source = a := by
  cases h with
  | single edge => exact ⟨edge, List.mem_cons_self, rfl⟩
  | cons edge _ => exact ⟨edge, List.mem_cons_self, rfl⟩

theorem Walk.exists_last {a b : String} {walk : List Edge} (h : Walk a walk b) :
    ∃ edge ∈ walk, edge.target = b := by
  induction h with
  | single edge => exact ⟨edge, by simp, rfl⟩
  | cons edge _ ih =>
      obtain ⟨last, hlast, target⟩ := ih
      exact ⟨last, List.mem_cons_of_mem _ hlast, target⟩

namespace Wiring

variable {wiring : Wiring} {a b c : String}

theorem mem_outgoing {edge : Edge} :
    edge ∈ wiring.outgoing a ↔ edge ∈ wiring.edges ∧ edge.source = a := by
  simp [outgoing]

theorem mem_incoming {edge : Edge} :
    edge ∈ wiring.incoming a ↔ edge ∈ wiring.edges ∧ edge.target = a := by
  simp [incoming]

theorem mem_successors :
    b ∈ wiring.successors a ↔ ∃ edge ∈ wiring.edges, edge.source = a ∧ edge.target = b := by
  simp [successors, mem_outgoing, and_assoc]

theorem source_mem_ids {edge : Edge} (h : edge ∈ wiring.edges) : edge.source ∈ wiring.ids :=
  (wiring.live edge h).1

theorem target_mem_ids {edge : Edge} (h : edge ∈ wiring.edges) : edge.target ∈ wiring.ids :=
  (wiring.live edge h).2

theorem nodup_ids (wiring : Wiring) : wiring.ids.Nodup := wiring.distinct

theorem leads_of_edge {edge : Edge} (h : edge ∈ wiring.edges) :
    wiring.Leads edge.source edge.target :=
  .step (mem_successors.2 ⟨edge, h, rfl, rfl⟩)

theorem leads_iff_exists_walk :
    wiring.Leads a b ↔ ∃ walk, Walk a walk b ∧ walk ⊆ wiring.edges := by
  constructor
  · intro h
    induction h with
    | step hab =>
        obtain ⟨edge, he, rfl, rfl⟩ := mem_successors.1 hab
        exact ⟨[edge], .single edge, by simpa using he⟩
    | cons hab _ ih =>
        obtain ⟨edge, he, rfl, rfl⟩ := mem_successors.1 hab
        obtain ⟨walk, hwalk, within⟩ := ih
        exact ⟨edge :: walk, .cons edge hwalk, List.cons_subset.2 ⟨he, within⟩⟩
  · rintro ⟨walk, hwalk, within⟩
    induction hwalk with
    | single edge => exact leads_of_edge (within (by simp))
    | cons edge _ ih =>
        obtain ⟨he, within⟩ := List.cons_subset.1 within
        exact (leads_of_edge he).trans (ih within)

theorem rank_lt_of_leads (rank : String → Nat)
    (climbs : ∀ edge ∈ wiring.edges, rank edge.source < rank edge.target)
    (h : wiring.Leads a b) : rank a < rank b := by
  obtain ⟨walk, hwalk, within⟩ := leads_iff_exists_walk.1 h
  exact hwalk.rank_lt rank fun edge he => climbs edge (within he)

theorem acyclic_of_rank (rank : String → Nat)
    (climbs : ∀ edge ∈ wiring.edges, rank edge.source < rank edge.target) : wiring.Acyclic :=
  fun _ h => Nat.lt_irrefl _ (rank_lt_of_leads rank climbs h)

/-- Whoever walks backwards within a set of nodes comes round at last. -/
theorem exists_cycle_behind {within : String → Prop}
    (fed : ∀ id, within id → ∃ edge ∈ wiring.edges, edge.target = id ∧ within edge.source)
    (h : within a) : ∃ c, within c ∧ wiring.Leads c c ∧ (c = a ∨ wiring.Leads c a) := by
  by_contra none_behind
  let Behind (id : String) : Prop := ∃ c, within c ∧ wiring.Leads c c ∧ (c = id ∨ wiring.Leads c id)
  -- On the nodes of the set that lie behind no cycle `Leads` is a strict order.
  let Free := { id : String // within id ∧ ¬ Behind id }
  have finite : Finite Free := by
    apply Set.Finite.to_subtype
    refine (List.finite_toSet wiring.ids).subset ?_
    rintro id ⟨hid, _⟩
    obtain ⟨edge, he, rfl, _⟩ := fed id hid
    exact target_mem_ids he
  let before (u v : Free) : Prop := wiring.Leads u v
  have isTrans : IsTrans Free before := ⟨fun _ _ _ huv hvw => Reaches.trans huv hvw⟩
  have irrefl : Std.Irrefl before := ⟨fun v hv => v.2.2 ⟨v, v.2.1, hv, .inl rfl⟩⟩
  have wellFounded : WellFounded before := Finite.wellFounded_of_trans_of_irrefl before
  obtain ⟨⟨id, hid, free⟩, _, least⟩ := wellFounded.has_min Set.univ ⟨⟨a, h, none_behind⟩, trivial⟩
  obtain ⟨edge, he, rfl, hsource⟩ := fed id hid
  have source_free : ¬ Behind edge.source := by
    rintro ⟨c, hc, cycle, rfl | leads⟩
    · exact free ⟨_, hc, cycle, .inr (leads_of_edge he)⟩
    · exact free ⟨c, hc, cycle, .inr (leads.trans (leads_of_edge he))⟩
  exact least ⟨edge.source, hsource, source_free⟩ trivial (leads_of_edge he)

/-- In an acyclic graph a nonempty set of nodes has one that is not fed from within the set. -/
theorem Acyclic.exists_unfed (acyclic : wiring.Acyclic) (within : String → Prop) (h : within a) :
    ∃ id, within id ∧ ∀ edge ∈ wiring.edges, edge.target = id → ¬ within edge.source := by
  by_contra all_fed
  push Not at all_fed
  obtain ⟨c, _, cycle, _⟩ := exists_cycle_behind all_fed h
  exact acyclic c cycle

end Wiring

end Canvas
