import Canvas.Dict
import Mathlib.Data.List.Nodup

/-!
# Dictionaries made from lists

A dictionary that is made from entries with distinct keys has these entries and no others. So one
that is made from its own entries is the same again.
-/

namespace Canvas

namespace Dict

variable {α : Type} {key : String} {value : α} {entries : List (String × α)}

theorem perm_place (new : key ∉ entries.map (·.1)) :
    (place key value entries).Perm ((key, value) :: entries) := by
  induction entries with
  | nil => exact .refl _
  | cons entry rest ih =>
      rw [List.map_cons, List.mem_cons, not_or] at new
      obtain ⟨other, new⟩ := new
      unfold place
      split
      · exact .refl _
      · exact ((ih new).cons entry).trans (.swap _ _ _)

theorem perm_insertAll (d : Dict α)
    (distinct : ((d.entries ++ entries).map (·.1)).Nodup) :
    (d.insertAll entries).entries.Perm (d.entries ++ entries) := by
  induction entries generalizing d with
  | nil => simp [insertAll]
  | cons entry rest ih =>
      have new : entry.1 ∉ d.entries.map (·.1) := by
        intro listed
        rw [List.map_append, List.map_cons] at distinct
        exact (List.nodup_append.1 distinct).2.2 _ listed _ List.mem_cons_self rfl
      have placed : (d.insert entry.1 entry.2).entries.Perm (entry :: d.entries) := perm_place new
      have moved := (placed.append_right rest).trans List.perm_middle.symm
      exact (ih _ ((moved.map _).nodup_iff.2 distinct)).trans moved

/-- A dictionary has the entries of the list of which it is made, if their keys are distinct. -/
theorem perm_ofList (distinct : (entries.map (·.1)).Nodup) :
    (ofList entries).entries.Perm entries :=
  empty.perm_insertAll distinct

theorem nodup_keys (d : Dict α) : (d.entries.map (·.1)).Nodup := by
  rw [List.Nodup, List.pairwise_map]
  apply d.sorted.imp
  intro first second less same
  exact String.lt_irrefl _ (same ▸ less)

theorem ofList_entries (d : Dict α) : ofList d.entries = d := by
  have same := (perm_ofList d.nodup_keys).eq_of_pairwise
    (fun first second _ _ less more => absurd (String.lt_trans less more) (String.lt_irrefl _))
    (ofList d.entries).sorted d.sorted
  obtain ⟨entries, sorted⟩ := d
  generalize ofList entries = other at same
  obtain ⟨others, sorted⟩ := other
  subst same
  rfl

theorem find?_of_mem {d : Dict α} (h : (key, value) ∈ d.entries) : d.find? key = some value := by
  have distinct := d.nodup_keys
  rw [find?]
  generalize d.entries = entries at h distinct ⊢
  induction entries with
  | nil => exact absurd h List.not_mem_nil
  | cons entry rest ih =>
      rw [List.map_cons, List.nodup_cons] at distinct
      rcases List.mem_cons.1 h with rfl | later
      · simp [lookup]
      · have other : entry.1 ≠ key := by
          rintro rfl
          exact distinct.1 (List.mem_map.2 ⟨_, later, rfl⟩)
        simp only [lookup, other, if_false]
        exact ih later distinct.2

end Dict

end Canvas
