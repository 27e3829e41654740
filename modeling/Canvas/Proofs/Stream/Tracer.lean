import Canvas.Stream.Tracer
import Mathlib.Data.List.Nodup

/-!
# What a tracer holds

The table of a tracer holds the runs in its queue, in the same order and each once, and no more than
there is room for. `Tracer.Consistent` states this. It holds of a new tracer and is kept by every
event, so it holds of every tracer that recorded whatever events.

Of a consistent tracer a look-up after an event is a matter of the event alone: a run that was not
held is held once it has started, and any other event of a run that is held is applied to it.
-/

namespace Canvas

/-- Whether a run begins with an event. -/
def Payload.StartsRun : Payload → Prop
  | runStarted .. => True
  | _ => False

namespace Tracer

variable {tracer : Tracer} {id : Uuid}

/-- The invariant of tracers. -/
structure Consistent (tracer : Tracer) : Prop where
  room : 0 < tracer.capacity
  keys : tracer.table.map (·.1) = tracer.admitted
  distinct : tracer.admitted.Nodup
  bounded : tracer.admitted.length ≤ tracer.capacity

theorem find?_eq_none_iff : tracer.find? id = none ↔ id ∉ tracer.table.map (·.1) := by
  simp only [find?, Option.map_eq_none_iff, List.find?_eq_none, decide_eq_true_eq, List.mem_map,
    not_exists, not_and]

theorem Consistent.find?_ne_none_iff (h : tracer.Consistent) :
    tracer.find? id ≠ none ↔ id ∈ tracer.admitted := by
  rw [ne_eq, find?_eq_none_iff, not_not, h.keys]

theorem Consistent.not_mem_admitted (h : tracer.Consistent) (fresh : tracer.find? id = none) :
    id ∉ tracer.admitted :=
  fun listed => h.find?_ne_none_iff.2 listed fresh

theorem find?_update (tracer : Tracer) (id : Uuid) (change : Traced → Traced) :
    (tracer.update id change).find? id = (tracer.find? id).map change := by
  simp only [find?, update]
  induction tracer.table with
  | nil => rfl
  | cons entry rest ih =>
      by_cases hkey : entry.1 = id
      · simp [hkey]
      · simpa [hkey] using ih

/-- The ids of the runs that are forgotten because there is no room for them. -/
def evicted (tracer : Tracer) : List Uuid :=
  tracer.admitted.take (tracer.admitted.length - tracer.capacity)

theorem find?_evict_of_not_mem (h : id ∉ tracer.evicted) :
    tracer.evict.find? id = tracer.find? id := by
  change ((tracer.table.filter fun entry => !tracer.evicted.contains entry.1).find? _).map _ = _
  rw [List.find?_filter]
  simp only [find?]
  congr 2
  funext entry
  by_cases hkey : entry.1 = id
  · simp [hkey, h]
  · simp [hkey]

/-- Of distinct items, those that are not among the first are the others. -/
theorem filter_notMem_take {ids : List Uuid} (distinct : ids.Nodup) (count : Nat) :
    ids.filter (fun id => !(ids.take count).contains id) = ids.drop count := by
  have disjoint := List.disjoint_take_drop distinct (Nat.le_refl count)
  have first : (ids.take count).filter (fun id => !(ids.take count).contains id) = [] := by
    simp
  have last : (ids.drop count).filter (fun id => !(ids.take count).contains id) =
      ids.drop count := by
    refine List.filter_eq_self.2 fun id hid => ?_
    have other : id ∉ ids.take count := fun taken => disjoint taken hid
    simpa using other
  calc
    _ = (ids.take count ++ ids.drop count).filter (fun id => !(ids.take count).contains id) := by
      rw [List.take_append_drop]
    _ = [] ++ ids.drop count := by rw [List.filter_append, first, last]
    _ = _ := List.nil_append _

/-- Eviction restores the bound and keeps queue and table alike. -/
theorem consistent_evict (room : 0 < tracer.capacity)
    (keys : tracer.table.map (·.1) = tracer.admitted) (distinct : tracer.admitted.Nodup) :
    tracer.evict.Consistent := by
  refine ⟨room, ?_, ?_, ?_⟩
  · change (tracer.table.filter fun entry => !tracer.evicted.contains entry.1).map (·.1) =
      tracer.admitted.drop _
    rw [← filter_notMem_take distinct, ← keys, List.filter_map, keys]
    rfl
  · exact distinct.sublist (List.drop_sublist _ _)
  · change (tracer.admitted.drop _).length ≤ tracer.capacity
    rw [List.length_drop]
    omega

theorem consistent_ofCapacity (capacity : Nat) : (ofCapacity capacity).Consistent := by
  refine ⟨?_, rfl, .nil, Nat.zero_le _⟩
  change 0 < max capacity 1
  omega

theorem Consistent.update (h : tracer.Consistent) (id : Uuid) (change : Traced → Traced) :
    (tracer.update id change).Consistent := by
  refine ⟨h.room, ?_, h.distinct, h.bounded⟩
  have keys : (tracer.update id change).table.map (·.1) = tracer.table.map (·.1) := by
    simp only [Tracer.update, List.map_map]
    refine List.map_congr_left fun entry _ => ?_
    change (if entry.1 = id then (entry.1, change entry.2) else entry).1 = entry.1
    split
    · rfl
    · rfl
  exact keys.trans h.keys

section Enrol

variable {canvasId : String} {input : Record} {startedAt : Timestamp}

/-- The tracer with one more run, before it makes room. -/
def hold (tracer : Tracer) (id : Uuid) (traced : Traced) : Tracer :=
  { tracer with
    admitted := tracer.admitted ++ [id]
    table := tracer.table ++ [(id, traced)] }

theorem enrol_of_fresh (fresh : tracer.find? id = none) :
    tracer.enrol id canvasId input startedAt =
      (tracer.hold id ⟨Run.started id canvasId input startedAt, []⟩).evict := by
  simp only [enrol, fresh]
  rfl

theorem find?_hold (fresh : tracer.find? id = none) (traced : Traced) :
    (tracer.hold id traced).find? id = some traced := by
  have unfound : tracer.table.find? (·.1 = id) = none := Option.map_eq_none_iff.1 fresh
  simp [find?, hold, List.find?_append, unfound]

theorem Consistent.enrol (h : tracer.Consistent) :
    (tracer.enrol id canvasId input startedAt).Consistent := by
  cases held : tracer.find? id with
  | some traced =>
      simp only [Tracer.enrol, held]
      exact h
  | none =>
      rw [enrol_of_fresh held]
      refine consistent_evict h.room ?_ ?_
      · change (tracer.table ++ [_]).map _ = tracer.admitted ++ [id]
        rw [List.map_append, h.keys]
        rfl
      · rw [hold, ← List.concat_eq_append]
        exact h.distinct.concat (h.not_mem_admitted held)

/-- A run that starts is held afterwards, however little room there is. -/
theorem Consistent.find?_enrol (h : tracer.Consistent) (fresh : tracer.find? id = none) :
    (tracer.enrol id canvasId input startedAt).find? id =
      some ⟨Run.started id canvasId input startedAt, []⟩ := by
  rw [enrol_of_fresh fresh, find?_evict_of_not_mem, find?_hold fresh]
  -- The queue grows by the run at its end, and what is evicted are runs before it.
  have room := h.room
  change id ∉ (tracer.admitted ++ [id]).take ((tracer.admitted ++ [id]).length - tracer.capacity)
  have before : (tracer.admitted ++ [id]).length - tracer.capacity ≤ tracer.admitted.length := by
    rw [List.length_append, List.length_singleton]
    omega
  rw [List.take_append_of_le_length before]
  intro evicted
  exact h.not_mem_admitted fresh (List.mem_of_mem_take evicted)

end Enrol

theorem Consistent.record (h : tracer.Consistent) (event : Event) :
    (tracer.record event).Consistent := by
  unfold Tracer.record
  split
  · exact h.enrol
  · exact h.update _ _

/-- Whatever events a tracer records, it stays consistent. -/
theorem Consistent.recordAll (h : tracer.Consistent) (events : List Event) :
    (tracer.recordAll events).Consistent := by
  induction events generalizing tracer with
  | nil => exact h
  | cons event rest ih => exact ih (h.record event)

/-- An event that starts no run is applied to the run that it is about. -/
theorem find?_record (tracer : Tracer) {event : Event} (later : ¬ event.payload.StartsRun) :
    (tracer.record event).find? event.runId = (tracer.find? event.runId).map (apply event) := by
  unfold record
  split
  · rename_i started
    rw [started] at later
    exact absurd trivial later
  · exact find?_update tracer event.runId (apply event)

/-- A change of the last step finds it, if no other step has its id. -/
theorem updateStep_last {steps : List StepRecord} (step : StepRecord)
    (fresh : step.id ∉ steps.map (·.id)) (change : StepRecord → StepRecord) :
    updateStep (steps ++ [step]) step.id change = steps ++ [change step] := by
  induction steps with
  | nil => simp [updateStep]
  | cons first rest ih =>
      rw [List.map_cons, List.mem_cons, not_or] at fresh
      simp only [List.cons_append, updateStep, Ne.symm fresh.1, if_false]
      exact congrArg _ (ih fresh.2)

end Tracer

end Canvas
