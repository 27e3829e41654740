import Canvas.Proofs.Stream.Tracer
import Mathlib.Data.List.DropRight

/-!
# Admission and eviction

Whatever events a tracer records, in whatever order, its queue is the end of the list of all
admissions so far: the latest of them, as many as there is room for. A run that was forgotten can be
admitted again and then counts as a new admission. What is stored of a run belongs to it and agrees
with its status, and an event that makes no sense at its moment changes nothing at all.

One event puts at most one id at the end of the queue and drops what there is no room for. Dropping
after each event or once after all of them leaves the same ids, and this carries the induction.
-/

namespace Canvas

section Last

variable {α : Type} {a : α} {n : Nat}

theorem rtake_append (first second : List α) (n : Nat) :
    (first ++ second).rtake n = first.rtake (n - second.length) ++ second.rtake n := by
  simp only [List.rtake_eq_reverse_take_reverse, List.reverse_append, List.take_append,
    List.length_reverse]

theorem rtake_rtake (l : List α) (m n : Nat) : (l.rtake m).rtake n = l.rtake (min n m) := by
  simp only [List.rtake_eq_reverse_take_reverse, List.reverse_reverse, List.take_take]

/-- Items that were dropped before others came are not missed among the last ones. -/
theorem rtake_rtake_append (first second : List α) (n : Nat) :
    (first.rtake n ++ second).rtake n = (first ++ second).rtake n := by
  rw [rtake_append, rtake_append, rtake_rtake, Nat.min_eq_left (Nat.sub_le _ _)]

theorem rtake_of_length_le {l : List α} (h : l.length ≤ n) : l.rtake n = l := by
  rw [List.rtake, Nat.sub_eq_zero_of_le h, List.drop_zero]

/-- An item is among the last ones exactly if few enough follow it, unless it comes again. -/
theorem mem_rtake_iff {before after : List α} (once : a ∉ after) :
    a ∈ (before ++ a :: after).rtake n ↔ after.length < n := by
  rw [List.append_cons, rtake_append, List.mem_append]
  constructor
  · rintro (mem | mem)
    · by_contra many
      rw [Nat.sub_eq_zero_of_le (Nat.not_lt.1 many), List.rtake_zero] at mem
      exact List.not_mem_nil mem
    · exact absurd (List.mem_of_mem_drop mem) once
  · intro few
    obtain ⟨m, hm⟩ := Nat.exists_eq_succ_of_ne_zero (Nat.sub_ne_zero_of_lt few)
    rw [hm, List.rtake_concat_succ]
    exact .inl List.mem_concat_self

end Last

instance : DecidablePred Payload.StartsRun
  | .runStarted .. => .isTrue trivial
  | .runCompleted .. | .runFailed .. | .stepStarted .. | .stepCompleted .. | .stepFailed ..
  | .stepProgress .. => .isFalse id

/-- Whether a run holds what its status says: no result while it is under way, then its output or
its error, and the time at which it ended. -/
def Run.Coherent (run : Run) : Prop :=
  match run.status with
  | .pending => False
  | .running => run.output = none ∧ run.error = none ∧ run.completedAt = none
  | .completed => run.output.isSome ∧ run.completedAt.isSome
  | .failed => run.error.isSome ∧ run.completedAt.isSome

/-- Whether a run and its steps belong to an id and the run holds what its status says. -/
structure RunReport.BelongsTo (report : RunReport) (id : Uuid) : Prop where
  run : report.run.id = id
  steps : ∀ step ∈ report.steps, step.runId = id
  coherent : report.run.Coherent

namespace Tracer

variable {tracer : Tracer} {id : Uuid} {event : Event}

theorem record_of_startsRun (starts : event.payload.StartsRun) :
    ∃ canvasId input, ∀ tracer : Tracer,
      tracer.record event = tracer.enrol event.runId canvasId input event.timestamp := by
  obtain ⟨timestamp, runId, payload⟩ := event
  cases payload with
  | runStarted canvasId input totalSteps => exact ⟨canvasId, input, fun _ => rfl⟩
  | _ => exact starts.elim

theorem record_of_not_startsRun (tracer : Tracer) (later : ¬ event.payload.StartsRun) :
    tracer.record event = tracer.update event.runId (apply event) := by
  obtain ⟨timestamp, runId, payload⟩ := event
  cases payload with
  | runStarted canvasId input totalSteps => exact absurd trivial later
  | _ => rfl

section Stored

theorem forall_mem_updateStep {steps : List StepRecord} {change : StepRecord → StepRecord}
    {P : StepRecord → Prop} (all : ∀ step ∈ steps, P step)
    (kept : ∀ step, P step → P (change step)) : ∀ step ∈ updateStep steps id change, P step := by
  induction steps with
  | nil => exact all
  | cons first rest ih =>
      obtain ⟨head, tail⟩ := List.forall_mem_cons.1 all
      unfold updateStep
      split
      · exact List.forall_mem_cons.2 ⟨kept first head, tail⟩
      · exact List.forall_mem_cons.2 ⟨head, ih tail⟩

/-- Whatever an event tells about a run, the run keeps its id and holds what its status says. -/
theorem belongsTo_apply {traced : Traced} (h : traced.BelongsTo event.runId) :
    (apply event traced).BelongsTo event.runId := by
  obtain ⟨timestamp, runId, payload⟩ := event
  cases payload with
  | runStarted | stepProgress => exact h
  | runCompleted output => exact ⟨h.run, h.steps, rfl, rfl⟩
  | runFailed error => exact ⟨h.run, h.steps, rfl, rfl⟩
  | stepStarted step input =>
      refine ⟨h.run, fun other hother => ?_, h.coherent⟩
      rcases List.mem_append.1 hother with hother | hother
      · exact h.steps other hother
      · rw [List.mem_singleton.1 hother]
        rfl
  | stepCompleted | stepFailed =>
      exact ⟨h.run, forall_mem_updateStep h.steps fun _ own => own, h.coherent⟩

/-- Whether everything that is stored belongs to the id under which it is stored, and every run that
is stored holds what its status says. -/
def StoresOwn (tracer : Tracer) : Prop := ∀ entry ∈ tracer.table, entry.2.BelongsTo entry.1

theorem storesOwn_evict (h : tracer.StoresOwn) : tracer.evict.StoresOwn :=
  fun entry hentry => h entry (List.mem_of_mem_filter hentry)

theorem storesOwn_enrol {canvasId : String} {input : Record} {startedAt : Timestamp}
    (h : tracer.StoresOwn) : (tracer.enrol id canvasId input startedAt).StoresOwn := by
  unfold enrol
  split
  · exact h
  · refine storesOwn_evict fun entry hentry => ?_
    rcases List.mem_append.1 hentry with hentry | hentry
    · exact h entry hentry
    · rw [List.mem_singleton.1 hentry]
      exact ⟨rfl, by simp, rfl, rfl, rfl⟩

theorem storesOwn_record (h : tracer.StoresOwn) (event : Event) :
    (tracer.record event).StoresOwn := by
  by_cases starts : event.payload.StartsRun
  · obtain ⟨canvasId, input, enrolled⟩ := record_of_startsRun starts
    rw [enrolled]
    exact storesOwn_enrol h
  · rw [tracer.record_of_not_startsRun starts]
    intro entry hentry
    obtain ⟨before, hbefore, rfl⟩ := List.mem_map.1 hentry
    by_cases own : before.1 = event.runId
    · rw [if_pos own, own]
      exact belongsTo_apply (own ▸ h before hbefore)
    · rw [if_neg own]
      exact h before hbefore

theorem storesOwn_recordAll (h : tracer.StoresOwn) (events : List Event) :
    (tracer.recordAll events).StoresOwn := by
  induction events generalizing tracer with
  | nil => exact h
  | cons event rest ih => exact ih (storesOwn_record h event)

end Stored

section Queue

/-- Whether a tracer admits a run with an event: the event starts a run that is not held. -/
def Admits (tracer : Tracer) (event : Event) : Prop :=
  event.payload.StartsRun ∧ tracer.find? event.runId = none

instance (tracer : Tracer) : DecidablePred tracer.Admits :=
  fun event => inferInstanceAs (Decidable (event.payload.StartsRun ∧ _))

/-- The ids of the runs that a tracer admits while it records events, in order. -/
def admissions (tracer : Tracer) : List Event → List Uuid
  | [] => []
  | event :: rest =>
    (if tracer.Admits event then [event.runId] else []) ++ (tracer.record event).admissions rest

theorem capacity_record (tracer : Tracer) (event : Event) :
    (tracer.record event).capacity = tracer.capacity := by
  by_cases starts : event.payload.StartsRun
  · obtain ⟨canvasId, input, enrolled⟩ := record_of_startsRun starts
    rw [enrolled, enrol]
    split
    · rfl
    · rfl
  · rw [tracer.record_of_not_startsRun starts]
    rfl

/-- An admission puts the run at the end of the queue, whose start is dropped if need be. -/
theorem admitted_record_of_admits (admits : tracer.Admits event) :
    (tracer.record event).admitted =
      (tracer.admitted ++ [event.runId]).rtake tracer.capacity := by
  obtain ⟨starts, fresh⟩ := admits
  obtain ⟨canvasId, input, enrolled⟩ := record_of_startsRun starts
  rw [enrolled, enrol_of_fresh fresh]
  rfl

theorem enrol_of_held {canvasId : String} {input : Record} {startedAt : Timestamp}
    (held : tracer.find? id ≠ none) : tracer.enrol id canvasId input startedAt = tracer := by
  obtain ⟨traced, found⟩ := Option.ne_none_iff_exists'.1 held
  unfold enrol
  rw [found]

/-- A second start of a run that is held changes nothing. -/
theorem record_of_held (starts : event.payload.StartsRun)
    (held : tracer.find? event.runId ≠ none) : tracer.record event = tracer := by
  obtain ⟨canvasId, input, enrolled⟩ := record_of_startsRun starts
  rw [enrolled, enrol_of_held held]

/-- An event that admits no run leaves the queue as it is. -/
theorem admitted_record_of_not_admits (refused : ¬ tracer.Admits event) :
    (tracer.record event).admitted = tracer.admitted := by
  by_cases starts : event.payload.StartsRun
  · rw [record_of_held starts fun fresh => refused ⟨starts, fresh⟩]
  · rw [tracer.record_of_not_startsRun starts]
    rfl

theorem Consistent.admitted_record (h : tracer.Consistent) (event : Event) :
    (tracer.record event).admitted =
      (tracer.admitted ++ if tracer.Admits event then [event.runId] else []).rtake
        tracer.capacity := by
  by_cases admits : tracer.Admits event
  · rw [admitted_record_of_admits admits, if_pos admits]
  · rw [admitted_record_of_not_admits admits, if_neg admits, List.append_nil,
      rtake_of_length_le h.bounded]

/-- The queue after some events holds the last of what it held and of what was admitted since. -/
theorem Consistent.admitted_recordAll (h : tracer.Consistent) (events : List Event) :
    (tracer.recordAll events).admitted =
      (tracer.admitted ++ tracer.admissions events).rtake tracer.capacity := by
  induction events generalizing tracer with
  | nil =>
      rw [admissions, List.append_nil, rtake_of_length_le h.bounded]
      rfl
  | cons event rest ih =>
      change ((tracer.record event).recordAll rest).admitted = _
      rw [ih (h.record event), capacity_record, h.admitted_record, rtake_rtake_append, admissions,
        List.append_assoc]

end Queue

theorem update_of_unheld (unheld : tracer.find? id = none) (change : Traced → Traced) :
    tracer.update id change = tracer := by
  have absent : ∀ entry ∈ tracer.table,
      (if entry.1 = id then (entry.1, change entry.2) else entry) = entry := by
    intro entry hentry
    have other : entry.1 ≠ id := by
      rintro rfl
      exact find?_eq_none_iff.1 unheld (List.mem_map_of_mem hentry)
    exact if_neg other
  have table : (tracer.update id change).table = tracer.table :=
    (List.map_congr_left absent).trans (List.map_id _)
  calc
    tracer.update id change = { tracer with table := (tracer.update id change).table } := rfl
    _ = tracer := by rw [table]

/-- An event that starts no run changes nothing if its run is not held. -/
theorem record_of_unheld (later : ¬ event.payload.StartsRun)
    (unheld : tracer.find? event.runId = none) : tracer.record event = tracer := by
  rw [tracer.record_of_not_startsRun later, update_of_unheld unheld]

/-- What a tracer with room for some runs holds after some admissions: the latest of them, each
once, in order, and under each id what belongs to it. -/
structure HoldsLatest (tracer : Tracer) (room : Nat) (admissions : List Uuid) : Prop where
  keys : tracer.table.map (·.1) = tracer.admitted
  distinct : tracer.admitted.Nodup
  bounded : tracer.admitted.length ≤ room
  latest : tracer.admitted = admissions.rtake room
  own : tracer.StoresOwn

/-- Whatever events a tracer records, it holds the runs that it admitted last. A start of a run that
is held leaves it as it is, and so does any other event of a run that is not. -/
theorem recordAll_holdsLatest (capacity : Nat) (events : List Event) :
    let tracer := (ofCapacity capacity).recordAll events
    tracer.HoldsLatest (max capacity 1) ((ofCapacity capacity).admissions events) ∧
    ∀ event : Event,
      (event.payload.StartsRun → tracer.find? event.runId ≠ none →
        tracer.record event = tracer) ∧
      (¬ event.payload.StartsRun → tracer.find? event.runId = none →
        tracer.record event = tracer) := by
  intro tracer
  have new : (ofCapacity capacity).Consistent := consistent_ofCapacity capacity
  have consistent : tracer.Consistent := new.recordAll events
  have queue : tracer.admitted =
      ((ofCapacity capacity).admissions events).rtake (max capacity 1) :=
    new.admitted_recordAll events
  have own : tracer.StoresOwn := storesOwn_recordAll (by simp [StoresOwn, ofCapacity]) events
  refine ⟨⟨consistent.keys, consistent.distinct, ?_, queue, own⟩,
    fun event => ⟨record_of_held, record_of_unheld⟩⟩
  rw [queue, List.rtake, List.length_drop]
  omega

/-- With room for one run, a second run pushes the first one out, which can then start again. -/
example :
    let start (bits : BitVec 128) : Event := ⟨default, ⟨bits⟩, .runStarted "canvas" Dict.empty 1⟩
    (ofCapacity 1).admissions [start 1, start 2, start 1, start 1] = [⟨1⟩, ⟨2⟩, ⟨1⟩] := by
  decide

end Tracer

end Canvas
