import Canvas.Graph.BackEdge
import Canvas.Proofs.Graph.Walk

/-!
# Back edges close cycles

While a depth-first search is at a vertex, every vertex it has entered and not left leads there. An
edge back to such a vertex therefore closes a cycle, and so does every edge that is reported.
-/

namespace Canvas

namespace DepthFirst

variable {next : String → List String} {search : DepthFirst} {v : String} {fuel : Nat}

/-- Whether a vertex was entered and not left. -/
def Open (search : DepthFirst) (v : String) : Prop := v ∈ search.entered ∧ v ∉ search.left

/-- Whether every back edge found so far leads to a vertex from which its start can be reached. -/
def Sound (next : String → List String) (search : DepthFirst) : Prop :=
  ∀ a b, (a, b) ∈ search.backEdges → b ∈ next a ∧ (b = a ∨ Reaches next b a)

/-- Follow one edge of a vertex that was entered. -/
def follow (next : String → List String) (fuel : Nat) (v : String) (search : DepthFirst)
    (u : String) : DepthFirst :=
  if !search.entered.contains u then visit next fuel u search
  else if !search.left.contains u then
    { search with backEdges := search.backEdges ++ [(v, u)] }
  else search

/-- Search from a vertex unless it was entered before. -/
def searchFrom (next : String → List String) (fuel : Nat) (search : DepthFirst) (v : String) :
    DepthFirst :=
  if search.entered.contains v then search else visit next fuel v search

theorem visit_succ :
    visit next (fuel + 1) v search =
      ((next v).foldl (follow next fuel v) (search.enter v)).leave v := rfl

theorem visitAll_eq (vertices : List String) :
    visitAll next fuel vertices = vertices.foldl (searchFrom next fuel) start := rfl

theorem open_enter {u : String} (h : (search.enter v).Open u) : u = v ∨ search.Open u := by
  obtain ⟨entered, unleft⟩ := h
  rcases List.mem_cons.1 entered with rfl | entered
  · exact .inl rfl
  · exact .inr ⟨entered, unleft⟩

theorem open_leave {u : String} (h : (search.leave v).Open u) : u ≠ v ∧ search.Open u := by
  obtain ⟨entered, unleft⟩ := h
  obtain ⟨ne, unleft⟩ := not_or.1 (List.mem_cons.not.1 unleft)
  exact ⟨ne, entered, unleft⟩

/-- What part of a search keeps: back edges stay sound, and no vertex is left open that was not open
before. -/
def Keeps (next : String → List String) (search after : DepthFirst) : Prop :=
  Sound next after ∧ ∀ u, after.Open u → search.Open u

/-- Following edges of a vertex, given what searches from their ends keep. -/
theorem keeps_follow
    (visits : ∀ (u : String) (search : DepthFirst), Sound next search →
      (∀ w, search.Open w → w = u ∨ Reaches next w u) →
      Keeps next search (visit next fuel u search))
    (targets : List String) (within : targets ⊆ next v) (sound : Sound next search)
    (path : ∀ w, search.Open w → w = v ∨ Reaches next w v) :
    Keeps next search (targets.foldl (follow next fuel v) search) := by
  induction targets generalizing search with
  | nil => exact ⟨sound, fun _ h => h⟩
  | cons u rest ih =>
      obtain ⟨hu, within⟩ := List.cons_subset.1 within
      have followed : Keeps next search (follow next fuel v search u) := by
        unfold follow
        split
        · refine visits u search sound fun w hw => .inr ?_
          exact reaches_of_edge ((path w hw).imp_left Eq.symm) hu
        · rename_i entered
          split
          · rename_i unleft
            simp only [List.contains_eq_mem, Bool.not_eq_true', decide_eq_false_iff_not,
              not_not] at entered unleft
            refine ⟨fun a b hab => ?_, fun _ h => h⟩
            rcases List.mem_append.1 hab with hab | hab
            · exact sound a b hab
            · obtain ⟨rfl, rfl⟩ := Prod.mk.inj (List.mem_singleton.1 hab)
              exact ⟨hu, path _ ⟨entered, unleft⟩⟩
          · exact ⟨sound, fun _ h => h⟩
      obtain ⟨sound', opened⟩ := ih within followed.1 fun w hw => path w (followed.2 w hw)
      exact ⟨sound', fun w hw => followed.2 w (opened w hw)⟩

theorem keeps_visit (fuel : Nat) (v : String) (search : DepthFirst) (sound : Sound next search)
    (path : ∀ w, search.Open w → w = v ∨ Reaches next w v) :
    Keeps next search (visit next fuel v search) := by
  induction fuel generalizing v search with
  | zero => exact ⟨sound, fun _ h => h⟩
  | succ fuel ih =>
      rw [visit_succ]
      have entered : ∀ w, (search.enter v).Open w → w = v ∨ Reaches next w v := by
        intro w hw
        rcases open_enter hw with rfl | hw
        · exact .inl rfl
        · exact path w hw
      have followed : Keeps next (search.enter v)
          ((next v).foldl (follow next fuel v) (search.enter v)) :=
        keeps_follow ih (next v) (List.Subset.refl _) sound entered
      obtain ⟨sound', opened⟩ := followed
      refine ⟨sound', fun w hw => ?_⟩
      obtain ⟨ne, hw⟩ := open_leave hw
      exact (open_enter (opened w hw)).resolve_left ne

theorem keeps_searchFrom (sound : Sound next search) (none_open : ∀ w, ¬ search.Open w) :
    Keeps next search (searchFrom next fuel search v) := by
  unfold searchFrom
  split
  · exact ⟨sound, fun _ h => h⟩
  · exact keeps_visit fuel v search sound fun w hw => absurd hw (none_open w)

/-- A search from every vertex finds sound back edges only. -/
theorem sound_visitAll (next : String → List String) (fuel : Nat) (vertices : List String) :
    Sound next (visitAll next fuel vertices) := by
  have searched : ∀ search, Sound next search → (∀ w, ¬ search.Open w) →
      Sound next (vertices.foldl (searchFrom next fuel) search) := by
    induction vertices with
    | nil => exact fun _ sound _ => sound
    | cons v rest ih =>
        intro search sound none_open
        obtain ⟨sound', opened⟩ := keeps_searchFrom sound none_open
        exact ih _ sound' fun w hw => none_open w (opened w hw)
  rw [visitAll_eq]
  exact searched start (fun _ _ h => absurd h List.not_mem_nil)
    fun _ h => absurd h.1 List.not_mem_nil

end DepthFirst

namespace Wiring

variable {wiring : Wiring} {edge : Edge}

theorem mem_distinctEdges {edges : List Edge} (h : edge ∈ distinctEdges edges) : edge ∈ edges := by
  induction edges with
  | nil => exact h
  | cons head rest ih =>
      rcases List.mem_cons.1 h with rfl | h
      · exact List.mem_cons_self
      · exact List.mem_cons_of_mem _ (ih (List.mem_filter.1 h).1)

theorem mem_of_latestEdge? {a b : String} (h : wiring.latestEdge? a b = some edge) :
    edge ∈ wiring.edges ∧ edge.source = a ∧ edge.target = b := by
  have found := List.find?_some h
  have hmem := List.mem_of_find?_eq_some h
  simp only [Bool.and_eq_true, decide_eq_true_eq] at found
  exact ⟨List.mem_reverse.1 hmem, found⟩

/-- The end of a reported edge leads back to its start. -/
theorem closes_of_mem_cycleEdges (h : edge ∈ wiring.cycleEdges) :
    edge ∈ wiring.edges ∧ (edge.target = edge.source ∨ wiring.Leads edge.target edge.source) := by
  obtain ⟨⟨a, b⟩, hab, latest⟩ := List.mem_filterMap.1 (mem_distinctEdges h)
  obtain ⟨he, rfl, rfl⟩ := mem_of_latestEdge? latest
  exact ⟨he, (DepthFirst.sound_visitAll _ _ _ _ _ hab).2⟩

/-- A reported edge lies on a cycle. -/
theorem leads_of_mem_cycleEdges (h : edge ∈ wiring.cycleEdges) :
    wiring.Leads edge.source edge.source := by
  obtain ⟨he, closes⟩ := closes_of_mem_cycleEdges h
  have first : wiring.Leads edge.source edge.target := leads_of_edge he
  rcases closes with heq | back
  · rwa [heq] at first
  · exact first.trans back

end Wiring

end Canvas
