import Mathlib.Data.List.Nodup

/-!
# Looking things up in lists

Lists stand for tables throughout: nodes by their ids, bindings by their fields, outputs by their
nodes. Where the keys are distinct a look-up finds the one item with the key, and where the items
are, the position of an item says where it stands.
-/

namespace Canvas

variable {α β : Type} {items : List α}

/-- Of items with distinct keys the one with a key is found. -/
theorem find?_key_eq_some_iff {key : α → String} (distinct : (items.map key).Nodup) {k : String}
    {item : α} : items.find? (key · = k) = some item ↔ item ∈ items ∧ key item = k := by
  constructor
  · intro h
    exact ⟨List.mem_of_find?_eq_some h, by simpa using List.find?_some h⟩
  · rintro ⟨hitem, rfl⟩
    cases hf : items.find? (key · = key item) with
    | none => simpa using List.find?_eq_none.1 hf item hitem
    | some other =>
        have listed : other ∈ items := List.mem_of_find?_eq_some hf
        have same : key other = key item := by simpa using List.find?_some hf
        rw [List.inj_on_of_nodup_map distinct listed hitem same]

/-- Distinct items stand at ascending positions. -/
theorem pairwise_idxOf_lt [DecidableEq α] (distinct : items.Nodup) :
    items.Pairwise fun a b => items.idxOf a < items.idxOf b := by
  refine List.pairwise_iff_getElem.2 fun i j hi hj lt => ?_
  rw [distinct.idxOf_getElem, distinct.idxOf_getElem]
  exact lt

/-- Searches that agree on the items of a list find the same in it. -/
theorem findSome?_congr {f g : α → Option β} (h : ∀ item ∈ items, f item = g item) :
    items.findSome? f = items.findSome? g := by
  induction items with
  | nil => rfl
  | cons first rest ih =>
      obtain ⟨same, later⟩ := List.forall_mem_cons.1 h
      rw [List.findSome?_cons, List.findSome?_cons, same, ih later]

/-- A search from the back finds the last item of its kind. -/
theorem find?_reverse_eq_some_iff {p : α → Bool} {item : α} :
    items.reverse.find? p = some item ↔
      p item = true ∧ ∃ k : Nat, items[k]? = some item ∧
        ∀ (j : Nat) (later : α), k < j → items[j]? = some later → p later = false := by
  rw [List.find?_eq_some_iff_getElem]
  -- Position `j` and its mirror image stand for each other.
  have mirrored : ∀ j < items.length, items.length - 1 - (items.length - 1 - j) = j := by omega
  refine and_congr_right fun _ => ⟨?_, ?_⟩
  · rintro ⟨i, hi, rfl, first⟩
    rw [List.length_reverse] at hi
    refine ⟨items.length - 1 - i, ?_, fun j later hj hlater => ?_⟩
    · rw [List.getElem_reverse, List.getElem?_eq_getElem]
    · obtain ⟨bound, rfl⟩ := List.getElem?_eq_some_iff.1 hlater
      have missed := first (items.length - 1 - j) (by omega)
      simpa [List.getElem_reverse, mirrored j bound] using missed
  · rintro ⟨k, hk, last⟩
    obtain ⟨bound, rfl⟩ := List.getElem?_eq_some_iff.1 hk
    refine ⟨items.length - 1 - k, by simp; omega, ?_, fun j hj => ?_⟩
    · simp [List.getElem_reverse, mirrored k bound]
    · have missed :=
        last (items.length - 1 - j) _ (by omega) (List.getElem?_eq_getElem (by omega))
      simpa [List.getElem_reverse] using missed

end Canvas
