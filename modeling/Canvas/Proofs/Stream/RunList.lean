import Canvas.Proofs.Lookup
import Canvas.Proofs.Stream.Admission
import Canvas.Proofs.Timestamp

/-!
# The runs of a canvas

Whatever events a tracer recorded, it lists for a canvas the runs that it holds of it, each once. The
run that started last comes first, by the time that its start gave, which need not be in the order
of the events. Of runs that started at the same time the one that was admitted last comes first.

The runs are read from the end of the queue to its start and then sorted by their start, and sorting
keeps the order of runs between which it does not decide.
-/

namespace Canvas

section Ties

variable {α : Type} {items : List α} {le : α → α → Bool} {r : α → α → Prop}

/-- Items that sorting does not tell apart stay in the order in which they were. -/
theorem pairwise_mergeSort_ties (trans : ∀ a b c, le a b = true → le b c = true → le a c = true)
    (total : ∀ a b, (le a b || le b a) = true) (h : items.Pairwise r) :
    (items.mergeSort le).Pairwise fun a b => le b a = true → r a b := by
  induction items with
  | nil => simp
  | cons first rest ih =>
      obtain ⟨ahead, later⟩ := List.pairwise_cons.1 h
      -- The first item is put behind items that it must follow, and so before all its ties.
      obtain ⟨before, behind, sorted, others, strict⟩ := List.mergeSort_cons trans total first rest
      have pairwise := ih later
      rw [others] at pairwise
      obtain ⟨hbefore, hbehind, across⟩ := List.pairwise_append.1 pairwise
      rw [sorted, List.pairwise_append, List.pairwise_cons]
      refine ⟨hbefore, ⟨fun other ho _ => ?_, hbehind⟩, fun other ho item hitem tie => ?_⟩
      · refine ahead other ((List.mergeSort_perm rest le).mem_iff.1 ?_)
        rw [others]
        exact List.mem_append_right _ ho
      · rcases List.mem_cons.1 hitem with rfl | hitem
        · exact absurd (strict other ho) (by simp [tie])
        · exact across other ho item hitem tie

end Ties

namespace Tracer

variable {tracer : Tracer} {id : Uuid} {run : Run} {canvasId : String}

/-- What a list of runs owes to a tracer and a canvas: it holds the runs of the canvas that the
tracer holds, each once, from the latest start to the earliest, and between equal starts from the
latest admission to the earliest. -/
structure ListsRuns (tracer : Tracer) (admissions : List Uuid) (canvasId : String)
    (runs : List Run) : Prop where
  held : ∀ run, run ∈ runs ↔ (∃ id, tracer.run? id = some run) ∧ run.canvasId = canvasId
  once : (runs.map (·.id)).Nodup
  starts : runs.Pairwise fun a b => b.startedAt.notAfter a.startedAt
  ties : runs.Pairwise fun a b => a.startedAt = b.startedAt →
    admissions.reverse.idxOf a.id < admissions.reverse.idxOf b.id

/-- The runs that are held, from the latest admission to the earliest. -/
def latestFirst (tracer : Tracer) : List Run := tracer.admitted.reverse.filterMap tracer.run?

theorem Consistent.mem_admitted_iff (h : tracer.Consistent) :
    id ∈ tracer.admitted ↔ ∃ run, tracer.run? id = some run := by
  rw [← h.find?_ne_none_iff, run?]
  cases tracer.find? id <;> simp

theorem StoresOwn.id_eq (own : tracer.StoresOwn) (held : tracer.run? id = some run) :
    run.id = id := by
  obtain ⟨traced, found, rfl⟩ := Option.map_eq_some_iff.1 held
  obtain ⟨entry, hentry, rfl⟩ := Option.map_eq_some_iff.1 found
  have key : entry.1 = id := by simpa using List.find?_some hentry
  exact (own entry (List.mem_of_find?_eq_some hentry)).run.trans key

theorem Consistent.mem_latestFirst_iff (h : tracer.Consistent) :
    run ∈ tracer.latestFirst ↔ ∃ id, tracer.run? id = some run := by
  rw [latestFirst, List.mem_filterMap]
  refine exists_congr fun id => and_iff_right_of_imp fun held => ?_
  exact List.mem_reverse.2 (h.mem_admitted_iff.2 ⟨run, held⟩)

/-- The runs that are held have the ids that are admitted. -/
theorem Consistent.map_id_latestFirst (h : tracer.Consistent) (own : tracer.StoresOwn) :
    tracer.latestFirst.map (·.id) = tracer.admitted.reverse := by
  have named : ∀ id ∈ tracer.admitted.reverse, (tracer.run? id).map (·.id) = some id := by
    intro id hid
    obtain ⟨run, held⟩ := h.mem_admitted_iff.1 (List.mem_reverse.1 hid)
    rw [held, Option.map_some, own.id_eq held]
  rw [latestFirst, List.map_filterMap, List.filterMap_congr named, List.filterMap_some]

/-- The runs that are held stand in the order of their last admissions, the latest first. -/
theorem Consistent.pairwise_latestFirst (h : tracer.Consistent) (own : tracer.StoresOwn)
    {admissions : List Uuid} {room : Nat} (latest : tracer.admitted = admissions.rtake room) :
    tracer.latestFirst.Pairwise fun a b =>
      admissions.reverse.idxOf a.id < admissions.reverse.idxOf b.id := by
  have ahead : tracer.admitted.reverse <+: admissions.reverse := by
    rw [latest, List.rtake_eq_reverse_take_reverse, List.reverse_reverse]
    exact List.take_prefix _ _
  have ids : (tracer.latestFirst.map (·.id)).Pairwise fun a b =>
      admissions.reverse.idxOf a < admissions.reverse.idxOf b := by
    rw [h.map_id_latestFirst own]
    refine (pairwise_idxOf_lt (List.nodup_reverse.2 h.distinct)).imp_of_mem fun ha hb lt => ?_
    rwa [ahead.idxOf_eq_of_mem ha, ahead.idxOf_eq_of_mem hb] at lt
  rwa [List.pairwise_map] at ids

/-- Whatever events a tracer recorded, it lists for every canvas exactly the runs that it holds of
it, each once and in order. -/
theorem runsOfCanvas_listsRuns (capacity : Nat) (events : List Event) (canvasId : String) :
    let tracer := (ofCapacity capacity).recordAll events
    tracer.ListsRuns ((ofCapacity capacity).admissions events) canvasId
      (tracer.runsOfCanvas canvasId) := by
  intro tracer
  have new : (ofCapacity capacity).Consistent := consistent_ofCapacity capacity
  have consistent : tracer.Consistent := new.recordAll events
  have own : tracer.StoresOwn := storesOwn_recordAll (by simp [StoresOwn, ofCapacity]) events
  have queue := consistent.pairwise_latestFirst own (new.admitted_recordAll events)
  let runs := tracer.latestFirst.filter (·.canvasId = canvasId)
  have perm : (tracer.runsOfCanvas canvasId).Perm runs := List.mergeSort_perm _ _
  have trans (a b c : Run) (hab : b.startedAt.notAfter a.startedAt = true)
      (hbc : c.startedAt.notAfter b.startedAt = true) : c.startedAt.notAfter a.startedAt = true :=
    Civil.notAbove_trans hbc hab
  have total (a b : Run) :
      (b.startedAt.notAfter a.startedAt || a.startedAt.notAfter b.startedAt) = true :=
    Bool.or_eq_true_iff.2 (Civil.notAbove_total _ _)
  refine ⟨fun run => ?_, ?_, List.pairwise_mergeSort trans total runs, ?_⟩
  · rw [perm.mem_iff, List.mem_filter, consistent.mem_latestFirst_iff, decide_eq_true_iff]
  · rw [(perm.map _).nodup_iff]
    have distinct : (tracer.latestFirst.map (·.id)).Nodup := by
      rw [consistent.map_id_latestFirst own]
      exact List.nodup_reverse.2 consistent.distinct
    exact distinct.sublist (List.filter_sublist.map _)
  · refine (pairwise_mergeSort_ties trans total (queue.filter _)).imp fun tied together => ?_
    refine tied ?_
    rw [together]
    exact Civil.notAbove_self _

/-- The clock went back for the second run, and the third started at the time of the first. -/
example :
    let late : Timestamp := ⟨⟨2024, 5, 1, 12, 0, 0, 0⟩, by decide⟩
    let early : Timestamp := ⟨⟨2024, 5, 1, 11, 59, 0, 0⟩, by decide⟩
    let start (bits : BitVec 128) (startedAt : Timestamp) : Event :=
      ⟨startedAt, ⟨bits⟩, .runStarted "canvas" Dict.empty 1⟩
    (((ofCapacity 3).recordAll [start 1 late, start 2 early, start 3 late]).runsOfCanvas
      "canvas").map (·.id) = [⟨3⟩, ⟨1⟩, ⟨2⟩] := by
  cbv

end Tracer

end Canvas
