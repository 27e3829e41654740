import Canvas.Proofs.Stream.Separation
import Canvas.Service.Server

/-!
# Steps of a run that is pushed out meanwhile

A request for the steps of a run reads the tracer twice: once to see whether the run is held, once
more for its steps. Other runs may be admitted between the two readings. If they push the run out,
the answer is an empty list, although the run was found and had steps.

While a run stays held its steps only become more. So an empty list is right only if the run had no
steps when it was found, and the run is lost exactly if the admissions leave no room for it.
-/

namespace Canvas

namespace Tracer

variable {tracer : Tracer} {id : Uuid} {event : Event} {events : List Event}

/-- Whether a run is held before, between and after events that are recorded. -/
def StaysHeld (tracer : Tracer) (id : Uuid) : List Event → Prop
  | [] => tracer.find? id ≠ none
  | event :: rest => tracer.find? id ≠ none ∧ (tracer.record event).StaysHeld id rest

theorem StaysHeld.held (h : tracer.StaysHeld id events) : tracer.find? id ≠ none := by
  cases events with
  | nil => exact h
  | cons => exact h.1

section Steps

theorem steps_of_unheld (unheld : tracer.find? id = none) : tracer.steps id = [] := by
  rw [steps, unheld]
  rfl

theorem length_updateStep (steps : List StepRecord) (id : Uuid)
    (change : StepRecord → StepRecord) : (updateStep steps id change).length = steps.length := by
  induction steps with
  | nil => rfl
  | cons first rest ih =>
      unfold updateStep
      split
      · rfl
      · rw [List.length_cons, List.length_cons, ih]

/-- No event takes a step away. -/
theorem length_steps_le_apply (event : Event) (traced : Traced) :
    traced.steps.length ≤ (apply event traced).steps.length := by
  obtain ⟨timestamp, runId, payload⟩ := event
  cases payload with
  | runStarted | stepProgress | runCompleted | runFailed => exact Nat.le_refl _
  | stepStarted step input =>
      simp only [apply, List.length_append]
      exact Nat.le_add_right _ _
  | stepCompleted | stepFailed =>
      simp only [apply, length_updateStep]
      exact Nat.le_refl _

theorem length_steps_le_record (held : (tracer.record event).find? id ≠ none) :
    (tracer.steps id).length ≤ ((tracer.record event).steps id).length := by
  by_cases unheld : tracer.find? id = none
  · rw [steps_of_unheld unheld]
    exact Nat.zero_le _
  · by_cases own : event.runId = id
    · subst own
      by_cases starts : event.payload.StartsRun
      · rw [record_of_held starts unheld]
      · obtain ⟨traced, found⟩ := Option.ne_none_iff_exists'.1 unheld
        rw [steps, steps, find?_record tracer starts, found]
        exact length_steps_le_apply event traced
    · obtain ⟨traced, found⟩ := Option.ne_none_iff_exists'.1 held
      rw [steps, steps, found, find?_of_find?_record own found]

/-- While a run stays held its steps only become more. -/
theorem StaysHeld.length_steps_le (h : tracer.StaysHeld id events) :
    (tracer.steps id).length ≤ ((tracer.recordAll events).steps id).length := by
  induction events generalizing tracer with
  | nil => exact Nat.le_refl _
  | cons event rest ih =>
      obtain ⟨-, later⟩ := h
      exact Nat.le_trans (length_steps_le_record later.held) (ih later)

end Steps

section Admitted

/-- A run that is not held is not held later, unless it is admitted. -/
theorem find?_recordAll_of_not_admitted (unheld : tracer.find? id = none)
    (out : id ∉ tracer.admissions events) : (tracer.recordAll events).find? id = none := by
  induction events generalizing tracer with
  | nil => exact unheld
  | cons event rest ih =>
      rw [admissions, List.mem_append, not_or] at out
      refine ih (find?_record_eq_none ?_ unheld) out.2
      rintro rfl starts
      rw [if_pos ⟨starts, unheld⟩] at out
      exact out.1 List.mem_cons_self

/-- A run that is held in the end was held throughout, unless it was admitted again. -/
theorem staysHeld_of_not_admitted (held : (tracer.recordAll events).find? id ≠ none)
    (out : id ∉ tracer.admissions events) : tracer.StaysHeld id events := by
  induction events generalizing tracer with
  | nil => exact held
  | cons event rest ih =>
      refine ⟨fun unheld => held (find?_recordAll_of_not_admitted unheld out), ih held ?_⟩
      rw [admissions, List.mem_append, not_or] at out
      exact out.2

theorem capacity_recordAll (tracer : Tracer) (events : List Event) :
    (tracer.recordAll events).capacity = tracer.capacity := by
  induction events generalizing tracer with
  | nil => rfl
  | cons event rest ih => exact (ih (tracer.record event)).trans (tracer.capacity_record event)

/-- A run stays in the queue exactly if the runs behind it and those admitted meanwhile leave room
for it. -/
theorem Consistent.find?_recordAll_ne_none_iff (h : tracer.Consistent)
    (out : id ∉ tracer.admissions events) {older newer : List Uuid}
    (queue : tracer.admitted = older ++ id :: newer) :
    (tracer.recordAll events).find? id ≠ none ↔
      newer.length + (tracer.admissions events).length < tracer.capacity := by
  have distinct := h.distinct
  rw [queue] at distinct
  have behind : id ∉ newer := (List.nodup_cons.1 (List.nodup_append.1 distinct).2.1).1
  have once : id ∉ newer ++ tracer.admissions events :=
    fun mem => (List.mem_append.1 mem).elim behind out
  rw [(h.recordAll events).find?_ne_none_iff, h.admitted_recordAll, queue, List.append_assoc,
    List.cons_append, mem_rtake_iff once, List.length_append]

end Admitted

end Tracer

namespace Service.Server

open Http (Response)

variable {tracer later : Tracer} {id : Uuid} {meanwhile : List Event}

/-- Whether a response tells the steps of a run as a tracer held them that records events meanwhile:
the run is missing, or these are its steps at a moment up to which it was held. -/
def TellsSteps (tracer : Tracer) (meanwhile : List Event) (id : Uuid) (response : Response) : Prop :=
  response = runMissing id ∨ ∃ part, part <+: meanwhile ∧ tracer.StaysHeld id part ∧
    response = .ok (.arr (((tracer.recordAll part).steps id).map StepRecord.shape.encode))

theorem stepsResponse_of_unheld (unheld : tracer.find? id = none) :
    stepsResponse tracer later id = runMissing id := by
  rw [stepsResponse, Tracer.run?, unheld]
  rfl

theorem stepsResponse_of_held (held : tracer.find? id ≠ none) :
    stepsResponse tracer later id =
      .ok (.arr ((later.steps id).map StepRecord.shape.encode)) := by
  obtain ⟨traced, found⟩ := Option.ne_none_iff_exists'.1 held
  rw [stepsResponse, Tracer.run?, found]
  rfl

/-- A run that was found and is lost before its steps are read has none in the answer. -/
theorem stepsResponse_of_lost (held : tracer.find? id ≠ none) (lost : later.find? id = none) :
    stepsResponse tracer later id = .ok (.arr []) := by
  rw [stepsResponse_of_held held, Tracer.steps_of_unheld lost]
  rfl

theorem tellsSteps_of_staysHeld (stays : tracer.StaysHeld id meanwhile) :
    TellsSteps tracer meanwhile id
      (stepsResponse tracer (tracer.recordAll meanwhile) id) :=
  .inr ⟨meanwhile, List.prefix_rfl, stays, stepsResponse_of_held stays.held⟩

/-- An empty list is right only for a run that had no steps when it was found. -/
theorem tellsSteps_nil_iff (held : tracer.find? id ≠ none) :
    TellsSteps tracer meanwhile id (.ok (.arr [])) ↔ tracer.steps id = [] := by
  constructor
  · rintro (missing | ⟨part, -, stays, told⟩)
    · have status : (200 : Nat) = 404 := congrArg Response.status missing
      exact absurd status (by decide)
    · have none : (tracer.recordAll part).steps id = [] := by
        simpa [Response.ok] using told
      have grows := stays.length_steps_le
      rw [none, List.length_nil, Nat.le_zero, List.length_eq_zero_iff] at grows
      exact grows
  · intro none
    refine .inr ⟨[], List.nil_prefix, held, ?_⟩
    change _ = Response.ok (.arr ((tracer.steps id).map _))
    rw [none]
    rfl

/-- Unless a run starts once more, the answer about its steps is right exactly if it is missing at
first, has no steps yet, or is still held in the end. Otherwise the answer is an empty list. How many
runs may be admitted before the run is lost depends on its place in the queue. -/
theorem stepsResponse_right_iff (capacity : Nat) (before meanwhile : List Event) (id : Uuid)
    (out : id ∉ ((Tracer.ofCapacity capacity).recordAll before).admissions meanwhile) :
    let tracer := (Tracer.ofCapacity capacity).recordAll before
    let later := tracer.recordAll meanwhile
    let response := stepsResponse tracer later id
    (TellsSteps tracer meanwhile id response ↔
      tracer.find? id = none ∨ tracer.steps id = [] ∨ later.find? id ≠ none) ∧
    (¬ TellsSteps tracer meanwhile id response → response = .ok (.arr [])) ∧
    ∀ older newer, tracer.admitted = older ++ id :: newer →
      (later.find? id ≠ none ↔
        newer.length + (tracer.admissions meanwhile).length < max capacity 1) := by
  intro tracer later response
  have right_iff : TellsSteps tracer meanwhile id response ↔
      tracer.find? id = none ∨ tracer.steps id = [] ∨ later.find? id ≠ none := by
    by_cases unheld : tracer.find? id = none
    · exact iff_of_true (.inl (stepsResponse_of_unheld unheld)) (.inl unheld)
    · by_cases lost : later.find? id = none
      · have empty : response = .ok (.arr []) := stepsResponse_of_lost unheld lost
        rw [empty, tellsSteps_nil_iff unheld]
        simp [unheld, lost]
      · have stays : tracer.StaysHeld id meanwhile := Tracer.staysHeld_of_not_admitted lost out
        exact iff_of_true (tellsSteps_of_staysHeld stays) (.inr (.inr lost))
  refine ⟨right_iff, fun wrong => ?_, fun older newer queue => ?_⟩
  · rw [right_iff, not_or, not_or, not_not] at wrong
    exact stepsResponse_of_lost wrong.1 wrong.2.2
  · have consistent : tracer.Consistent := (Tracer.consistent_ofCapacity capacity).recordAll before
    have room : tracer.capacity = max capacity 1 := Tracer.capacity_recordAll _ _
    rw [← room]
    exact consistent.find?_recordAll_ne_none_iff out queue

/-- The events of a run that starts with one step. -/
def oneStep (bits : BitVec 128) : List Event :=
  [⟨default, ⟨bits⟩, .runStarted "canvas" Dict.empty 1⟩,
    ⟨default, ⟨bits⟩, .stepStarted ⟨⟨3⟩, "question", .query, "question", 0⟩ Dict.empty⟩]

/-- With room for two runs, the answer about a run is right when another one starts meanwhile. -/
theorem stepsResponse_right_of_room :
    let tracer := (Tracer.ofCapacity 2).recordAll (oneStep 1)
    TellsSteps tracer (oneStep 2) ⟨1⟩
      (stepsResponse tracer (tracer.recordAll (oneStep 2)) ⟨1⟩) :=
  (stepsResponse_right_iff 2 (oneStep 1) (oneStep 2) ⟨1⟩ (by decide)).1.2 (.inr (.inr (by decide)))

/-- With room for one run, a run that has a step is found, and is answered with no steps when
another one starts meanwhile. -/
theorem stepsResponse_wrong_of_no_room :
    let tracer := (Tracer.ofCapacity 1).recordAll (oneStep 1)
    let later := tracer.recordAll (oneStep 2)
    tracer.steps ⟨1⟩ ≠ [] ∧ stepsResponse tracer later ⟨1⟩ = .ok (.arr []) ∧
      ¬ TellsSteps tracer (oneStep 2) ⟨1⟩ (stepsResponse tracer later ⟨1⟩) := by
  intro tracer later
  have held : tracer.find? ⟨1⟩ ≠ none := by decide
  have lost : later.find? ⟨1⟩ = none := by decide
  have steps : tracer.steps ⟨1⟩ ≠ [] := by decide
  have empty := stepsResponse_of_lost held lost
  refine ⟨steps, empty, ?_⟩
  rw [empty, tellsSteps_nil_iff held]
  exact steps

end Service.Server

end Canvas
