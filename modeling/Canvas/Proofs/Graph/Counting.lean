import Canvas.Proofs.Graph.Order

/-!
# Counting open edges

While nodes are placed, one number is kept for each node, and nothing else says when it is released.
The number counts the edges into the node that are still open: at every step, and also in the middle
of a step, when some edges of the node that was just placed are consumed and others are not. So no
number is ever taken below zero, and placing ends after as many steps as there are nodes.

Every wiring is meant, whether a graph was taken as drawn or tidied: edges may be parallel, may lead
back to their source and may close a cycle.
-/

namespace Canvas

namespace Placement

variable {wiring : Wiring} {state : Placement} {id : String} {rest : List String}
variable {consumed left : List Edge}

/-- The state in the middle of a step: the first node of the queue is placed, and some of its edges
are consumed. -/
def midway (state : Placement) (id : String) (rest : List String) (consumed : List Edge) :
    Placement :=
  consumed.foldl (fun state edge => state.release edge.target)
    { state with placed := state.placed ++ [id], queue := rest }

/-- The last of several steps is made from where the others lead. -/
theorem advance_succ (count : Nat) (state : Placement) :
    state.advance wiring (count + 1) =
      ((state.advance wiring count).step? wiring).getD (state.advance wiring count) := by
  induction count generalizing state with
  | zero =>
      cases hs : state.step? wiring with
      | none => simp [advance, hs]
      | some next => simp [advance, hs]
  | succ count ih =>
      rw [advance, advance]
      cases hs : state.step? wiring with
      | none => simp [hs]
      | some next => exact ih next

/-- A step consumes all edges of the first node. -/
theorem step?_eq_midway (hq : state.queue = id :: rest) :
    state.step? wiring = some (state.midway id rest (wiring.outgoing id)) := by
  simp only [step?, hq]
  rfl

theorem placed_midway : (state.midway id rest consumed).placed = state.placed ++ [id] :=
  placed_foldl_release consumed _

/-- In the middle of a step the edges that are not consumed are still counted. -/
theorem Balanced.midway (h : Balanced wiring [] state) (hq : state.queue = id :: rest)
    (split : wiring.outgoing id = consumed ++ left) :
    Balanced wiring left (state.midway id rest consumed) := by
  have opened := h.place hq
  rw [split] at opened
  apply opened.consume
  intro edge he
  have outgoing : edge ∈ wiring.outgoing id := split ▸ List.mem_append_left left he
  exact (Wiring.mem_outgoing.1 outgoing).1

end Placement

namespace Wiring

open Placement (Balanced)

variable (wiring : Wiring) {count : Nat}

/-- The state after a number of steps, or after fewer if by then no node is left to place. -/
def placementAfter (count : Nat) : Placement := wiring.initialPlacement.advance wiring count

/-- The next step is the step made from there. -/
theorem placementAfter_succ {id : String} {rest : List String}
    (hq : (wiring.placementAfter count).queue = id :: rest) :
    wiring.placementAfter (count + 1) =
      (wiring.placementAfter count).midway id rest (wiring.outgoing id) := by
  have hs : (wiring.placementAfter count).step? wiring = some _ := Placement.step?_eq_midway hq
  rw [placementAfter, Placement.advance_succ, ← placementAfter, hs]
  rfl

theorem balanced_placementAfter (count : Nat) : (wiring.placementAfter count).Balanced wiring [] :=
  wiring.balanced_initialPlacement.advance count

/-- While the queue is not empty, as many nodes are placed as steps were made, and some node is
still to be placed. -/
theorem length_placed_placementAfter (busy : (wiring.placementAfter count).queue ≠ []) :
    (wiring.placementAfter count).placed.length = count ∧ count < wiring.nodes.length := by
  have hlength : (wiring.placementAfter count).placed.length = count := by
    have hlength := wiring.balanced_initialPlacement.length_placed_advance count busy
    rwa [initialPlacement, List.length_nil, Nat.zero_add] at hlength
  refine ⟨hlength, ?_⟩
  by_contra many
  refine busy ((wiring.balanced_placementAfter count).queue_eq_nil ?_)
  rw [hlength, ids, List.length_map]
  omega

/-- After any number of steps the number of a node is that of the edges into it whose source is not
placed, the queue holds just the unplaced nodes with number zero, and no node is queued or placed
twice. This holds after each single edge that a step consumes, too, with the edges that it has still
to consume counted as open: the number that the next edge lowers is not zero. No step is left once
as many were made as there are nodes. -/
theorem open_edges_are_counted :
    (∀ count,
      (wiring.placementAfter count).Balanced wiring [] ∧
      ∀ id rest, (wiring.placementAfter count).queue = id :: rest →
        wiring.placementAfter (count + 1) =
          (wiring.placementAfter count).midway id rest (wiring.outgoing id) ∧
        ∀ consumed left, wiring.outgoing id = consumed ++ left →
          let now := (wiring.placementAfter count).midway id rest consumed
          now.placed = (wiring.placementAfter count).placed ++ [id] ∧ now.Balanced wiring left ∧
            ∀ edge ∈ left.head?, 0 < now.waitsFor edge.target) ∧
    (∀ count, (wiring.placementAfter count).queue ≠ [] →
      (wiring.placementAfter count).placed.length = count ∧ count < wiring.nodes.length) ∧
    (wiring.placementAfter wiring.nodes.length).queue = [] := by
  refine ⟨fun count => ⟨wiring.balanced_placementAfter count, ?_⟩, ?_, ?_⟩
  · intro id rest hq
    refine ⟨wiring.placementAfter_succ hq, fun consumed left split => ?_⟩
    have balanced := (wiring.balanced_placementAfter count).midway hq split
    refine ⟨Placement.placed_midway, balanced, fun edge next => ?_⟩
    obtain ⟨later, rfl⟩ := List.head?_eq_some_iff.1 next
    have outgoing : edge ∈ wiring.outgoing id := by simp [split]
    exact balanced.waitsFor_pos (Wiring.mem_outgoing.1 outgoing).1
  · exact fun count busy => wiring.length_placed_placementAfter busy
  · by_contra busy
    exact Nat.lt_irrefl _ (wiring.length_placed_placementAfter busy).2

end Wiring

end Canvas
