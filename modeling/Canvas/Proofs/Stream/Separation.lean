import Canvas.Proofs.Stream.Admission

/-!
# Runs are kept apart

All that the events of one run can do to another is to push it out. So what is held of a run comes
from its own events alone, and how many runs started after it decides whether it is held.

This needs that no run starts twice. A run that is pushed out could otherwise be admitted again,
without the steps of its first life. Under this condition every start is an admission.
-/

namespace Canvas

namespace Tracer

variable {tracer : Tracer} {id : Uuid} {event : Event} {events before after : List Event}

section Others

theorem find?_update_of_ne {other : Uuid} (h : other ≠ id) (change : Traced → Traced) :
    (tracer.update other change).find? id = tracer.find? id := by
  simp only [find?, update]
  induction tracer.table with
  | nil => rfl
  | cons entry rest ih =>
      by_cases hkey : entry.1 = id
      · simp [hkey, Ne.symm h]
      · by_cases changed : entry.1 = other
        · simpa [changed, h] using ih
        · simpa [changed, hkey] using ih

theorem find?_hold_of_ne {other : Uuid} (h : other ≠ id) (traced : Traced) :
    (tracer.hold other traced).find? id = tracer.find? id := by
  simp [find?, hold, List.find?_append, h]

/-- What is held after an eviction was held before. -/
theorem find?_of_find?_evict {traced : Traced} (held : tracer.evict.find? id = some traced) :
    tracer.find? id = some traced := by
  have kept : id ∉ tracer.evicted := by
    intro forgotten
    have absent : tracer.evict.find? id = none := by
      refine find?_eq_none_iff.2 fun mem => ?_
      obtain ⟨entry, hentry, rfl⟩ := List.mem_map.1 mem
      have stays := (List.mem_filter.1 hentry).2
      change (!tracer.evicted.contains entry.1) = true at stays
      simp [forgotten] at stays
    rw [absent] at held
    contradiction
  rwa [find?_evict_of_not_mem kept] at held

/-- What is held of a run after an event of another was held before. -/
theorem find?_of_find?_record {traced : Traced} (other : event.runId ≠ id)
    (held : (tracer.record event).find? id = some traced) : tracer.find? id = some traced := by
  by_cases starts : event.payload.StartsRun
  · by_cases fresh : tracer.find? event.runId = none
    · obtain ⟨canvasId, input, enrolled⟩ := record_of_startsRun starts
      rw [enrolled, enrol_of_fresh fresh] at held
      rw [← find?_hold_of_ne other]
      exact find?_of_find?_evict held
    · rwa [record_of_held starts fresh] at held
  · rwa [record_of_not_startsRun tracer starts, find?_update_of_ne other] at held

end Others

section Own

/-- What events tell about a run that is held, one after the other. -/
def applyAll (events : List Event) (traced : Traced) : Traced :=
  events.foldl (fun traced event => apply event traced) traced

/-- What is held of a run after events none of which starts it was held before, but for what its own
events told. -/
theorem exists_find?_of_find?_recordAll {traced : Traced}
    (unstarted : ∀ event ∈ events, event.runId = id → ¬ event.payload.StartsRun)
    (held : (tracer.recordAll events).find? id = some traced) :
    ∃ earlier, tracer.find? id = some earlier ∧
      traced = applyAll (events.filter (·.runId = id)) earlier := by
  induction events generalizing tracer with
  | nil => exact ⟨traced, held, rfl⟩
  | cons event rest ih =>
      obtain ⟨first, later⟩ := List.forall_mem_cons.1 unstarted
      obtain ⟨next, found, told⟩ := ih later held
      by_cases own : event.runId = id
      · subst own
        rw [find?_record tracer (first rfl), Option.map_eq_some_iff] at found
        obtain ⟨earlier, found, rfl⟩ := found
        refine ⟨earlier, found, ?_⟩
        rw [told, List.filter_cons_of_pos (by simp)]
        rfl
      · refine ⟨next, find?_of_find?_record own found, ?_⟩
        rw [told, List.filter_cons_of_neg (by simpa using own)]

theorem find?_recordAll_eq_none
    (unstarted : ∀ event ∈ events, event.runId = id → ¬ event.payload.StartsRun)
    (unheld : tracer.find? id = none) : (tracer.recordAll events).find? id = none := by
  cases held : (tracer.recordAll events).find? id with
  | none => rfl
  | some traced =>
      obtain ⟨earlier, found, _⟩ := exists_find?_of_find?_recordAll unstarted held
      rw [unheld] at found
      contradiction

theorem find?_record_eq_none (unstarted : event.runId = id → ¬ event.payload.StartsRun)
    (unheld : tracer.find? id = none) : (tracer.record event).find? id = none :=
  find?_recordAll_eq_none (List.forall_mem_singleton.2 unstarted) unheld

/-- A run that is held hears all of its own events, if nothing else is recorded. -/
theorem find?_recordAll_of_own {traced : Traced}
    (own : ∀ event ∈ events, event.runId = id ∧ ¬ event.payload.StartsRun)
    (held : tracer.find? id = some traced) :
    (tracer.recordAll events).find? id = some (applyAll events traced) := by
  induction events generalizing tracer traced with
  | nil => exact held
  | cons event rest ih =>
      obtain ⟨⟨rfl, later⟩, own⟩ := List.forall_mem_cons.1 own
      refine ih own ?_
      rw [find?_record tracer later, held]
      rfl

end Own

/-- The ids of the runs that events start, in order. -/
def startedIds (events : List Event) : List Uuid :=
  (events.filter fun event => event.payload.StartsRun).map (·.runId)

section Starts

theorem mem_startedIds :
    id ∈ startedIds events ↔ ∃ event ∈ events, event.payload.StartsRun ∧ event.runId = id := by
  simp [startedIds, and_assoc]

theorem startedIds_sublist (h : before.Sublist after) :
    (startedIds before).Sublist (startedIds after) :=
  (h.filter _).map _

/-- The starts of one run among all of them. -/
theorem startedIds_filter (id : Uuid) (events : List Event) :
    startedIds (events.filter (·.runId = id)) = (startedIds events).filter (· = id) := by
  simp only [startedIds, List.filter_map, List.filter_filter, Function.comp_def, Bool.and_comm]

theorem startedIds_append (before after : List Event) :
    startedIds (before ++ after) = startedIds before ++ startedIds after := by
  simp [startedIds]

theorem startedIds_cons_of_startsRun (starts : event.payload.StartsRun) (events : List Event) :
    startedIds (event :: events) = event.runId :: startedIds events := by
  simp [startedIds, starts]

theorem startedIds_cons_of_not_startsRun (later : ¬ event.payload.StartsRun)
    (events : List Event) : startedIds (event :: events) = startedIds events := by
  simp [startedIds, later]

/-- If no run starts twice, or is held already when it starts, every start is an admission. -/
theorem admissions_eq_startedIds (once : (startedIds events).Nodup)
    (fresh : ∀ id ∈ startedIds events, tracer.find? id = none) :
    tracer.admissions events = startedIds events := by
  induction events generalizing tracer with
  | nil => rfl
  | cons event rest ih =>
      by_cases starts : event.payload.StartsRun
      · rw [startedIds_cons_of_startsRun starts] at once fresh ⊢
        obtain ⟨unheld, fresh⟩ := List.forall_mem_cons.1 fresh
        obtain ⟨new, once⟩ := List.nodup_cons.1 once
        have later : ∀ id ∈ startedIds rest, (tracer.record event).find? id = none := by
          intro id hid
          refine find?_record_eq_none ?_ (fresh id hid)
          rintro rfl
          exact absurd hid new
        rw [admissions, if_pos ⟨starts, unheld⟩, ih once later]
        rfl
      · rw [startedIds_cons_of_not_startsRun starts] at once fresh ⊢
        have later : ∀ id ∈ startedIds rest, (tracer.record event).find? id = none :=
          fun id hid => find?_record_eq_none (fun _ => starts) (fresh id hid)
        rw [admissions, if_neg fun admits => starts admits.1, ih once later]
        rfl

theorem not_startsRun_of_not_mem (h : id ∉ startedIds events) :
    ∀ event ∈ events, event.runId = id → ¬ event.payload.StartsRun :=
  fun event hevent own starts => h (mem_startedIds.2 ⟨event, hevent, starts, own⟩)

/-- A run that starts once is started neither before its start nor after it. -/
theorem not_mem_of_once (once : (startedIds (before ++ event :: after)).Nodup)
    (starts : event.payload.StartsRun) :
    event.runId ∉ startedIds before ∧ event.runId ∉ startedIds after := by
  rw [startedIds_append, startedIds_cons_of_startsRun starts] at once
  obtain ⟨-, behind, apart⟩ := List.nodup_append.1 once
  exact ⟨fun mem => apart _ mem _ List.mem_cons_self rfl, (List.nodup_cons.1 behind).1⟩

end Starts

section Held

theorem recordAll_append (tracer : Tracer) (before : List Event) (event : Event)
    (after : List Event) :
    tracer.recordAll (before ++ event :: after) =
      ((tracer.recordAll before).record event).recordAll after :=
  List.foldl_append

variable {capacity : Nat}

/-- If no run starts twice, the queue holds the runs that started last. -/
theorem admitted_recordAll_of_once (once : (startedIds events).Nodup) :
    ((ofCapacity capacity).recordAll events).admitted =
      (startedIds events).rtake (max capacity 1) := by
  have queue := (consistent_ofCapacity capacity).admitted_recordAll events
  rwa [admissions_eq_startedIds once fun _ _ => rfl] at queue

/-- A run is held exactly if the runs that started after it leave room for it. -/
theorem find?_recordAll_ne_none_iff (capacity : Nat)
    (once : (startedIds (before ++ event :: after)).Nodup) (starts : event.payload.StartsRun) :
    ((ofCapacity capacity).recordAll (before ++ event :: after)).find? event.runId ≠ none ↔
      (startedIds after).length < max capacity 1 := by
  have consistent := (consistent_ofCapacity capacity).recordAll (before ++ event :: after)
  rw [consistent.find?_ne_none_iff, admitted_recordAll_of_once once, startedIds_append,
    startedIds_cons_of_startsRun starts]
  exact mem_rtake_iff (not_mem_of_once once starts).2

/-- With its start a run is held alike, whatever was recorded before. -/
theorem exists_begun (starts : event.payload.StartsRun) :
    ∃ begun, ∀ capacity before, event.runId ∉ startedIds before →
      (((ofCapacity capacity).recordAll before).record event).find? event.runId = some begun := by
  obtain ⟨canvasId, input, enrolled⟩ := record_of_startsRun starts
  refine ⟨⟨.started event.runId canvasId input event.timestamp, []⟩,
    fun capacity before unstarted => ?_⟩
  rw [enrolled]
  refine ((consistent_ofCapacity capacity).recordAll before).find?_enrol ?_
  exact find?_recordAll_eq_none (not_startsRun_of_not_mem unstarted) rfl

/-- What is held of a run is what a new tracer holds that records its events alone. -/
theorem find?_recordAll_eq_alone (once : (startedIds events).Nodup)
    (held : ((ofCapacity capacity).recordAll events).find? id ≠ none) (room : Nat) :
    ((ofCapacity capacity).recordAll events).find? id =
      ((ofCapacity room).recordAll (events.filter (·.runId = id))).find? id := by
  have consistent := (consistent_ofCapacity capacity).recordAll events
  have started := consistent.find?_ne_none_iff.1 held
  rw [admitted_recordAll_of_once once] at started
  obtain ⟨event, hevent, starts, rfl⟩ := mem_startedIds.1 (List.mem_of_mem_drop started)
  obtain ⟨before, after, rfl⟩ := List.append_of_mem hevent
  obtain ⟨early, late⟩ := not_mem_of_once once starts
  obtain ⟨begun, begins⟩ := exists_begun starts
  have alone : ((ofCapacity room).recordAll ((before ++ event :: after).filter
      (·.runId = event.runId))).find? event.runId =
        some (applyAll (after.filter (·.runId = event.runId)) begun) := by
    rw [List.filter_append, List.filter_cons_of_pos (by simp), recordAll_append]
    refine find?_recordAll_of_own (fun other hother => ?_) (begins room _ ?_)
    · obtain ⟨mem, own⟩ := List.mem_filter.1 hother
      have own : other.runId = event.runId := of_decide_eq_true own
      exact ⟨own, not_startsRun_of_not_mem late other mem own⟩
    · exact fun mem => early ((startedIds_sublist List.filter_sublist).subset mem)
  obtain ⟨traced, found⟩ := Option.ne_none_iff_exists'.1 held
  rw [alone, found]
  rw [recordAll_append] at found
  obtain ⟨earlier, first, rfl⟩ :=
    exists_find?_of_find?_recordAll (not_startsRun_of_not_mem late) found
  rw [begins capacity before early] at first
  rw [Option.some.inj first]

end Held

end Tracer

end Canvas
