import Canvas.Proofs.Graph.BackEdge
import Mathlib.Data.List.Nodup
import Mathlib.Data.List.Perm.Subperm

/-!
# Vertices are left in an order

When a depth-first search leaves a vertex it has followed all its edges, and each of them was a back
edge or led to a vertex that was left before. So along the edges that are no back edges vertices
stand in the reverse of the order in which they are left, and these edges close no cycle.

The search enters a vertex only while fewer vertices are entered than there are, which is what keeps
its fuel from running out.
-/

namespace Canvas

namespace DepthFirst

variable {next : String → List String} {vertices targets : List String}
variable {search middle after : DepthFirst} {u v a b : String} {fuel : Nat}

/-- Whether one vertex was left before another. The vertex that was left last stands first. -/
def LeftBefore (search : DepthFirst) (b a : String) : Prop :=
  ∃ earlier, a :: earlier <:+ search.left ∧ b ∈ earlier

/-- What holds of a search at every moment. -/
structure Orderly (next : String → List String) (vertices : List String) (search : DepthFirst) :
    Prop where
  known : search.entered ⊆ vertices
  once : search.entered.Nodup
  left_entered : search.left ⊆ search.entered
  left_once : search.left.Nodup
  settled : ∀ a ∈ search.left, ∀ b ∈ next a,
    (a, b) ∈ search.backEdges ∨ search.LeftBefore b a

/-- What a part of a search keeps: nothing is taken back, and the same vertices are open as
before. -/
structure Resumes (search after : DepthFirst) : Prop where
  entered : search.entered <:+ after.entered
  left : search.left <:+ after.left
  backEdges : search.backEdges ⊆ after.backEdges
  opens : ∀ u, after.Open u ↔ search.Open u

theorem Resumes.refl (search : DepthFirst) : Resumes search search :=
  ⟨List.suffix_refl _, List.suffix_refl _, List.Subset.refl _, fun _ => Iff.rfl⟩

theorem Resumes.trans (first : Resumes search middle) (second : Resumes middle after) :
    Resumes search after :=
  ⟨first.entered.trans second.entered, first.left.trans second.left,
    List.Subset.trans first.backEdges second.backEdges,
    fun u => (second.opens u).trans (first.opens u)⟩

theorem LeftBefore.mono (h : search.LeftBefore b a) (grown : search.left <:+ after.left) :
    after.LeftBefore b a := by
  obtain ⟨earlier, suffix, mem⟩ := h
  exact ⟨earlier, suffix.trans grown, mem⟩

namespace Orderly

/-- A vertex that was not entered yet leaves some fuel. -/
theorem entered_length_lt (h : Orderly next vertices search) (hv : v ∈ vertices)
    (fresh : v ∉ search.entered) : search.entered.length < vertices.length := by
  have nodup : (v :: search.entered).Nodup := List.nodup_cons.2 ⟨fresh, h.once⟩
  have within : v :: search.entered ⊆ vertices := List.cons_subset.2 ⟨hv, h.known⟩
  exact (List.subperm_of_subset nodup within).length_le

theorem enter (h : Orderly next vertices search) (hv : v ∈ vertices)
    (fresh : v ∉ search.entered) : Orderly next vertices (search.enter v) where
  known := List.cons_subset.2 ⟨hv, h.known⟩
  once := List.nodup_cons.2 ⟨fresh, h.once⟩
  left_entered := List.subset_cons_of_subset _ h.left_entered
  left_once := h.left_once
  settled := h.settled

theorem open_enter_iff (h : Orderly next vertices search) (fresh : v ∉ search.entered) :
    (search.enter v).Open u ↔ u = v ∨ search.Open u := by
  refine ⟨open_enter, ?_⟩
  rintro (rfl | ⟨entered, unleft⟩)
  · exact ⟨List.mem_cons_self, fun left => fresh (h.left_entered left)⟩
  · exact ⟨List.mem_cons_of_mem _ entered, unleft⟩

/-- A vertex is left once each of its edges is a back edge or leads to a vertex that was left. -/
theorem leave (h : Orderly next vertices search) (opened : search.Open v)
    (followed : ∀ b ∈ next v, (v, b) ∈ search.backEdges ∨ b ∈ search.left) :
    Orderly next vertices (search.leave v) where
  known := h.known
  once := h.once
  left_entered := List.cons_subset.2 ⟨opened.1, h.left_entered⟩
  left_once := List.nodup_cons.2 ⟨opened.2, h.left_once⟩
  settled := by
    intro a ha b hb
    rcases List.mem_cons.1 ha with rfl | ha
    · exact (followed b hb).imp_right fun left => ⟨search.left, List.suffix_refl _, left⟩
    · exact (h.settled a ha b hb).imp_right fun before => before.mono (List.suffix_cons _ _)

/-- Leaving the vertex that was entered last. -/
theorem resumes_leave (h : Orderly next vertices search) (fresh : v ∉ search.entered)
    (resumes : Resumes (search.enter v) after) : Resumes search (after.leave v) where
  entered := (List.suffix_cons _ _).trans resumes.entered
  left := resumes.left.trans (List.suffix_cons _ _)
  backEdges := resumes.backEdges
  opens := by
    intro u
    constructor
    · intro hu
      obtain ⟨ne, hu⟩ := open_leave hu
      exact ((h.open_enter_iff fresh).1 ((resumes.opens u).1 hu)).resolve_left ne
    · intro hu
      have ne : u ≠ v := by
        rintro rfl
        exact fresh hu.1
      obtain ⟨entered, unleft⟩ := (resumes.opens u).2 ((h.open_enter_iff fresh).2 (.inr hu))
      exact ⟨entered, fun left => (List.mem_cons.1 left).elim ne unleft⟩

/-- Finding a back edge. -/
theorem backEdge (h : Orderly next vertices search) (pair : String × String) :
    Orderly next vertices { search with backEdges := search.backEdges ++ [pair] } :=
  { h with settled := fun a ha b hb => (h.settled a ha b hb).imp_left (List.mem_append_left _) }

end Orderly

/-- What following one edge or several adds to the rules for a search. -/
def Follows (next : String → List String) (vertices : List String) (v : String)
    (targets : List String) (search after : DepthFirst) : Prop :=
  Orderly next vertices after ∧ Resumes search after ∧
    ∀ b ∈ targets, (v, b) ∈ after.backEdges ∨ b ∈ after.left

/-- What the search from a vertex achieves: it ends with the vertex left. -/
def Leaves (next : String → List String) (vertices : List String) (v : String)
    (search after : DepthFirst) : Prop :=
  Orderly next vertices after ∧ Resumes search after ∧ v ∈ after.left

/-- Following one edge, given what the search from its end achieves. -/
theorem follows_follow (h : Orderly next vertices search)
    (visits : u ∉ search.entered → Leaves next vertices u search (visit next fuel u search)) :
    Follows next vertices v [u] search (follow next fuel v search u) := by
  simp only [Follows, List.forall_mem_singleton]
  unfold follow
  split
  · rename_i fresh
    simp only [List.contains_eq_mem, Bool.not_eq_true', decide_eq_false_iff_not] at fresh
    obtain ⟨orderly, resumes, left⟩ := visits fresh
    exact ⟨orderly, resumes, .inr left⟩
  · rename_i entered
    split
    · refine ⟨h.backEdge _, ⟨List.suffix_refl _, List.suffix_refl _, List.subset_append_left _ _,
        fun _ => Iff.rfl⟩, .inl ?_⟩
      exact List.mem_append_right _ List.mem_cons_self
    · rename_i left
      simp only [List.contains_eq_mem, Bool.not_eq_true', decide_eq_false_iff_not, not_not]
        at left
      exact ⟨h, .refl _, .inr left⟩

theorem follows_foldl
    (visits : ∀ (u : String) (search : DepthFirst), Orderly next vertices search → u ∈ vertices →
      u ∉ search.entered → vertices.length ≤ search.entered.length + fuel →
      Leaves next vertices u search (visit next fuel u search))
    (within : targets ⊆ vertices) (h : Orderly next vertices search)
    (enough : vertices.length ≤ search.entered.length + fuel) :
    Follows next vertices v targets search (targets.foldl (follow next fuel v) search) := by
  induction targets generalizing search with
  | nil => exact ⟨h, .refl _, fun b hb => absurd hb List.not_mem_nil⟩
  | cons u rest ih =>
      obtain ⟨hu, within⟩ := List.cons_subset.1 within
      have follows : Follows next vertices v [u] search (follow next fuel v search u) :=
        follows_follow h fun fresh => visits u search h hu fresh enough
      obtain ⟨orderly, resumes, followed⟩ := follows
      have grown := resumes.entered.length_le
      obtain ⟨orderly', resumes', followed'⟩ := ih within orderly (by omega)
      refine ⟨orderly', resumes.trans resumes', List.forall_mem_cons.2 ⟨?_, followed'⟩⟩
      exact (followed u List.mem_cons_self).imp (fun hb => resumes'.backEdges hb)
        fun left => resumes'.left.subset left

/-- A search with enough fuel leaves the vertex at which it starts. -/
theorem leaves_visit (closed : ∀ v ∈ vertices, next v ⊆ vertices) (fuel : Nat) (v : String)
    (search : DepthFirst) (h : Orderly next vertices search) (hv : v ∈ vertices)
    (fresh : v ∉ search.entered) (enough : vertices.length ≤ search.entered.length + fuel) :
    Leaves next vertices v search (visit next fuel v search) := by
  induction fuel generalizing v search with
  | zero =>
      have := h.entered_length_lt hv fresh
      omega
  | succ fuel ih =>
      rw [visit_succ]
      have enough' : vertices.length ≤ (search.enter v).entered.length + fuel := by
        change vertices.length ≤ search.entered.length + 1 + fuel
        omega
      have follows : Follows next vertices v (next v) (search.enter v)
          ((next v).foldl (follow next fuel v) (search.enter v)) :=
        follows_foldl ih (closed v hv) (h.enter hv fresh) enough'
      obtain ⟨orderly, resumes, followed⟩ := follows
      have opened := (resumes.opens v).2 ((h.open_enter_iff fresh).2 (.inl rfl))
      exact ⟨orderly.leave opened followed, h.resumes_leave fresh resumes, List.mem_cons_self⟩

/-- What holds of a search between the vertices from which it starts. -/
structure Rests (next : String → List String) (vertices : List String) (search : DepthFirst) :
    Prop where
  orderly : Orderly next vertices search
  none_open : ∀ u, ¬ search.Open u

namespace Rests

theorem start : Rests next vertices start where
  orderly := ⟨List.nil_subset _, .nil, List.nil_subset _, .nil,
    fun _ ha => absurd ha List.not_mem_nil⟩
  none_open := fun _ h => absurd h.1 List.not_mem_nil

/-- Searching from one more vertex. -/
theorem searchFrom (closed : ∀ v ∈ vertices, next v ⊆ vertices) (h : Rests next vertices search)
    (hv : v ∈ vertices) :
    Rests next vertices (DepthFirst.searchFrom next vertices.length search v) ∧
      search.left ⊆ (DepthFirst.searchFrom next vertices.length search v).left ∧
      v ∈ (DepthFirst.searchFrom next vertices.length search v).left := by
  unfold DepthFirst.searchFrom
  split
  · rename_i entered
    refine ⟨h, List.Subset.refl _, ?_⟩
    by_contra unleft
    exact h.none_open v ⟨List.contains_iff_mem.1 entered, unleft⟩
  · rename_i fresh
    obtain ⟨orderly, resumes, left⟩ := leaves_visit closed vertices.length v search h.orderly hv
      (by simpa using fresh) (Nat.le_add_left _ _)
    exact ⟨⟨orderly, fun u hu => h.none_open u ((resumes.opens u).1 hu)⟩,
      resumes.left.subset, left⟩

theorem foldl_searchFrom (closed : ∀ v ∈ vertices, next v ⊆ vertices)
    (h : Rests next vertices search) (within : targets ⊆ vertices) :
    Rests next vertices (targets.foldl (DepthFirst.searchFrom next vertices.length) search) ∧
      search.left ⊆
        (targets.foldl (DepthFirst.searchFrom next vertices.length) search).left ∧
      targets ⊆ (targets.foldl (DepthFirst.searchFrom next vertices.length) search).left := by
  induction targets generalizing search with
  | nil => exact ⟨h, List.Subset.refl _, List.nil_subset _⟩
  | cons v rest ih =>
      obtain ⟨hv, within⟩ := List.cons_subset.1 within
      obtain ⟨rests, grown, left⟩ := h.searchFrom closed hv
      obtain ⟨rests', grown', left'⟩ := ih rests within
      exact ⟨rests', List.Subset.trans grown grown', List.cons_subset.2 ⟨grown' left, left'⟩⟩

end Rests

/-- Searching from every vertex leaves every vertex. -/
theorem orderly_visitAll (closed : ∀ v ∈ vertices, next v ⊆ vertices) :
    Orderly next vertices (visitAll next vertices.length vertices) ∧
      vertices ⊆ (visitAll next vertices.length vertices).left := by
  obtain ⟨rests, -, left⟩ := Rests.start.foldl_searchFrom closed (List.Subset.refl _)
  exact ⟨rests.orderly, left⟩

/-- A vertex that was left before another stands behind it. -/
theorem LeftBefore.idxOf_lt (h : search.LeftBefore b a) (once : search.left.Nodup) :
    search.left.idxOf a < search.left.idxOf b := by
  obtain ⟨earlier, ⟨later, split⟩, hb⟩ := h
  rw [← split] at once ⊢
  obtain ⟨-, -, apart⟩ := List.nodup_append.1 once
  have ha : a ∉ later := fun hl => apart a hl a List.mem_cons_self rfl
  have hbl : b ∉ later := fun hl => apart b hl b (List.mem_cons_of_mem _ hb) rfl
  have ne : a ≠ b := by
    rintro rfl
    exact (List.nodup_cons.1 (List.nodup_append.1 once).2.1).1 hb
  rw [List.idxOf_append_of_notMem ha, List.idxOf_append_of_notMem hbl, List.idxOf_cons_self,
    List.idxOf_cons_ne _ ne]
  omega

end DepthFirst

end Canvas
