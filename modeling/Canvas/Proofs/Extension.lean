import Canvas.Proofs.Event
import Canvas.Proofs.Json.Tolerance
import Canvas.Issue

/-!
# Documents from newer and older programs

Canvases, findings, runs and step records are decoded to the same if any of the objects in them that
stand for structures gets more members, or is replaced by the list of its fields. What is within a
record belongs to the user and stays as it is. An event is decoded to the same if more members stand
in its envelope or in its data; of the envelope, they pass through the decoder of the payload.
-/

namespace Canvas

open Json (Extends Fields ListOf Mode ObjectOf Tolerates)
open Json (map_eq_ok_iff tolerates_eq tolerates_list)
open Json.Document (ofJson ofMembers)
open Json.Field (tolerant_defaulted tolerant_kept tolerant_omittable tolerant_optional)
open Json.Field (tolerant_required)

variable {mode : Mode}

section Structures

/-- What may stand for a node. -/
def Node.Rewrites : Json → Json → Prop := Node.shape.Rewrites fun _ => Eq

/-- What may stand for an edge. -/
def Edge.Rewrites : Json → Json → Prop := Edge.shape.Rewrites fun _ => Eq

/-- What may stand under the name of a field of a canvas. -/
def Graph.within : String → Json → Json → Prop
  | "nodes" => ListOf Node.Rewrites
  | "edges" => ListOf Edge.Rewrites
  | _ => Eq

/-- What may stand for a canvas. -/
def Graph.Rewrites : Json → Json → Prop := Graph.shape.Rewrites Graph.within

/-- What may stand for a finding. -/
def Issue.Rewrites : Json → Json → Prop := Issue.shape.Rewrites fun _ => Eq

/-- What may stand under the name of a field of findings. -/
def Findings.within : String → Json → Json → Prop
  | "errors" | "warnings" => ListOf Issue.Rewrites
  | _ => Eq

/-- What may stand for all findings about a canvas. -/
def Findings.Rewrites : Json → Json → Prop := Findings.shape.Rewrites Findings.within

/-- What may stand for a run. -/
def Run.Rewrites : Json → Json → Prop := Run.shape.Rewrites fun _ => Eq

/-- What may stand for a step record. -/
def StepRecord.Rewrites : Json → Json → Prop := StepRecord.shape.Rewrites fun _ => Eq

theorem Json.record_empty (mode : Mode) :
    Json.record mode (ofJson (.ofRecord Dict.empty)) = .ok Dict.empty := by
  obtain ⟨isText, isBuffered⟩ := mode
  cases isText <;> rfl

theorem Node.tolerates : Tolerates Node.shape.decode Node.Rewrites :=
  Json.Shape.tolerates (by decide)
    ⟨tolerant_kept, tolerant_kept, tolerant_defaulted (tolerates_eq _) fun _ => rfl,
      tolerant_defaulted (tolerates_eq _) Json.record_empty, trivial⟩

theorem Edge.tolerates : Tolerates Edge.shape.decode Edge.Rewrites :=
  Json.Shape.tolerates (by decide) ⟨tolerant_kept, tolerant_kept, tolerant_kept, trivial⟩

theorem Graph.tolerates : Tolerates Graph.shape.decode Graph.Rewrites :=
  Json.Shape.tolerates (by decide)
    ⟨tolerant_required (tolerates_list Node.tolerates),
      tolerant_required (tolerates_list Edge.tolerates), trivial⟩

theorem Issue.tolerates : Tolerates Issue.shape.decode Issue.Rewrites :=
  Json.Shape.tolerates (by decide)
    ⟨tolerant_kept, tolerant_kept, tolerant_omittable (tolerates_eq _),
      tolerant_omittable (tolerates_eq _), trivial⟩

theorem Findings.tolerates : Tolerates Findings.shape.decode Findings.Rewrites :=
  Json.Shape.tolerates (by decide)
    ⟨tolerant_required (tolerates_eq _), tolerant_required (tolerates_list Issue.tolerates),
      tolerant_required (tolerates_list Issue.tolerates), trivial⟩

theorem Run.tolerates : Tolerates Run.shape.decode Run.Rewrites :=
  Json.Shape.tolerates (by decide)
    ⟨tolerant_kept, tolerant_kept, tolerant_kept, tolerant_kept,
      tolerant_optional (tolerates_eq _), tolerant_optional (tolerates_eq _), tolerant_kept,
      tolerant_optional (tolerates_eq _), trivial⟩

theorem StepRecord.tolerates : Tolerates StepRecord.shape.decode StepRecord.Rewrites :=
  Json.Shape.tolerates (by decide)
    ⟨tolerant_kept, tolerant_kept, tolerant_kept, tolerant_kept, tolerant_kept, tolerant_kept,
      tolerant_kept, tolerant_optional (tolerates_eq _), tolerant_optional (tolerates_eq _),
      tolerant_optional (tolerates_eq _), tolerant_kept, tolerant_optional (tolerates_eq _),
      trivial⟩

end Structures

section Events

/-- What may stand for the data of a type of event. -/
def EventKind.Extends (kind : EventKind) : Json → Json → Prop :=
  ObjectOf kind.fields.names fun _ => Eq

/-- The names of the members of an event. -/
def Event.names : List String := ["timestamp", "runId", "type", "data"]

/-- What may stand under the name of a member of an event. -/
def Event.within (kind : EventKind) : String → Json → Json → Prop
  | "data" => kind.Extends
  | _ => Eq

/-- What may stand for an event of a type. -/
def Event.Extends (kind : EventKind) : Json → Json → Prop :=
  ObjectOf names (Event.within kind)

theorem StepRef.tolerant {τ : Type} {rest : Fields τ} (others : rest.Tolerant fun _ => Eq) :
    (StepRef.fields rest).Tolerant fun _ => Eq :=
  ⟨tolerant_kept, tolerant_kept, tolerant_kept, tolerant_kept, tolerant_kept, others⟩

theorem EventKind.tolerant (kind : EventKind) : kind.fields.Tolerant fun _ => Eq := by
  cases kind with
  | runStarted => exact ⟨tolerant_kept, tolerant_kept, tolerant_kept, trivial⟩
  | runCompleted => exact ⟨tolerant_kept, tolerant_kept, trivial⟩
  | runFailed => exact ⟨tolerant_kept, trivial⟩
  | stepStarted => exact StepRef.tolerant ⟨tolerant_kept, trivial⟩
  | stepCompleted => exact StepRef.tolerant ⟨tolerant_kept, tolerant_kept, trivial⟩
  | stepFailed => exact StepRef.tolerant ⟨tolerant_kept, tolerant_kept, trivial⟩
  | stepProgress => exact ⟨tolerant_kept, tolerant_kept, trivial⟩

theorem EventKind.tolerates (kind : EventKind) : Tolerates kind.decodeData kind.Extends := by
  rintro mode _ _ payload ⟨more⟩ decoded
  obtain ⟨values, read, made⟩ := map_eq_ok_iff.1 decoded
  have holds := (Fields.decodeMembers_iff kind.nodup_names).1 read
  have later := holds.extended kind.tolerant (List.Subset.refl _) more
  exact map_eq_ok_iff.2 ⟨values, (Fields.decodeMembers_iff kind.nodup_names).2 later, made⟩

section Members

variable {members written : List (String × Json)}

/-- What corresponds to two members are two members. -/
theorem exists_pair_of_forall₂ {α : Type} {relates : α → α → Prop} {first second : α}
    {others : List α} (h : List.Forall₂ relates [first, second] others) :
    ∃ one other, others = [one, other] ∧ relates first one ∧ relates second other := by
  obtain ⟨one, rest, here, behind, rfl⟩ := List.forall₂_cons_left_iff.1 h
  obtain ⟨other, left, there, none, rfl⟩ := List.forall₂_cons_left_iff.1 behind
  obtain rfl := List.forall₂_nil_left_iff.1 none
  exact ⟨one, other, rfl, here, there⟩

/-- Type and data of an event stay where they were, and the data may have got more members. -/
theorem Payload.Seen.takeAll_extended {payload : Payload}
    (more : Extends Event.names (Event.within payload.kind) members written)
    (taken : nothing.takeAll mode (ofMembers members) = .ok (whole payload)) :
    nothing.takeAll mode (ofMembers written) = .ok (whole payload) := by
  obtain ⟨type, content, read, parts⟩ := takeAll_nothing_iff.1 taken
  have kept : List.Forall₂ _ (members.filter (IsPart ·)) (written.filter (IsPart ·)) :=
    more.filter (fun name => name = "type" ∨ name = "data") (by simp [Event.names])
  rcases parts with ⟨typeFirst, data⟩ | ⟨dataFirst, data⟩
  · rw [typeFirst] at kept
    obtain ⟨⟨_, type⟩, ⟨_, longer⟩, after, ⟨-, rfl, rfl⟩, -, rfl, grown⟩ :=
      exists_pair_of_forall₂ kept
    refine takeAll_nothing_iff.2 ⟨type, longer, read, .inl ⟨after, ?_⟩⟩
    exact payload.kind.tolerates _ _ _ _ grown data
  · rw [dataFirst] at kept
    obtain ⟨⟨_, longer⟩, ⟨_, type⟩, after, ⟨-, rfl, grown⟩, -, rfl, rfl⟩ :=
      exists_pair_of_forall₂ kept
    refine takeAll_nothing_iff.2 ⟨type, longer, read, .inr ⟨after, ?_⟩⟩
    exact payload.kind.tolerates _ _ _ _ grown data

end Members

/-- More members of an event are left in its envelope, where its payload passes over them. -/
theorem Event.tolerates {json written : Json} {event : Event}
    (decoded : Event.decode mode (ofJson json) = .ok event)
    (more : Event.Extends event.payload.kind json written) :
    Event.decode mode (ofJson written) = .ok event := by
  obtain ⟨more⟩ := more
  obtain ⟨times, runs, parts⟩ := Event.decode_obj_iff.1 decoded
  refine Event.decode_obj_iff.2 ⟨?_, ?_, Payload.Seen.takeAll_extended more parts⟩
  · rwa [← more.valuesOf_eq (by simp [Event.names]) rfl]
  · rwa [← more.valuesOf_eq (by simp [Event.names]) rfl]

end Events

/-- A canvas, findings, a run or a step record in which any structures got more members or became
lists of their fields is decoded to the same, and so is an event whose envelope or data got more
members. -/
theorem decoding_tolerates_extensions :
    Tolerates Graph.shape.decode Graph.Rewrites ∧
    Tolerates Findings.shape.decode Findings.Rewrites ∧
    Tolerates Run.shape.decode Run.Rewrites ∧
    Tolerates StepRecord.shape.decode StepRecord.Rewrites ∧
    ∀ mode json written event, Event.decode mode (ofJson json) = .ok event →
      Event.Extends event.payload.kind json written →
        Event.decode mode (ofJson written) = .ok event :=
  ⟨Graph.tolerates, Findings.tolerates, Run.tolerates, StepRecord.tolerates,
    fun _ _ _ _ decoded more => Event.tolerates decoded more⟩

/-- A canvas whose node has neither label nor configuration, and what a program may make of it that
knows of versions and writes nodes as lists; and a failed run, told by a program that counts
retries. The data of the event comes first, so it is set aside with what it has more. -/
theorem decodes_from_newer_program :
    let question : Json := .obj [("id", .str "question"), ("type", .str "query")]
    let positional : Json := .arr [.str "question", .str "query", .str "", .obj []]
    let canvas : Json := .obj [("nodes", .arr [question]), ("edges", .arr [])]
    let newer : Json :=
      .obj [("version", .int 2), ("nodes", .arr [positional]), ("edges", .arr [])]
    let time : Json := .str "2024-01-01T00:00:00Z"
    let run : Json := .str "00000000-0000-0000-0000-000000000001"
    let event : Json := .obj [("data", .obj [("error", .str "lost")]), ("runId", run),
      ("timestamp", time), ("type", .str "run:failed")]
    let retried : Json := .obj [("data", .obj [("error", .str "lost"), ("retries", .int 3)]),
      ("retries", .int 3), ("runId", run), ("timestamp", time), ("type", .str "run:failed")]
    ∃ graph failed,
      Json.decode Graph.shape.decode canvas = .ok graph ∧
      Json.decode Graph.shape.decode newer = .ok graph ∧
      Json.decode Event.decode event = .ok failed ∧ Json.decode Event.decode retried = .ok failed ∧
      graph.nodes.map (·.label) = [""] ∧ failed.kind = "run:failed" := by
  intro question positional canvas newer time run event retried
  have nodes : ListOf Node.Rewrites (.arr [question]) (.arr [positional]) :=
    .items (.cons (.positional ⟨.written rfl, .written rfl, .absent rfl, .absent rfl, rfl⟩) .nil)
  have rewritten : Graph.Rewrites canvas newer :=
    .object (.added (by decide) (.kept nodes (.kept (.items .nil) .nil)))
  have data : EventKind.runFailed.Extends (.obj [("error", .str "lost")])
      (.obj [("error", .str "lost"), ("retries", .int 3)]) :=
    .members (.kept rfl (.added (by decide) .nil))
  have more : Event.Extends .runFailed event retried :=
    .members (.kept data (.added (by decide) (.kept rfl (.kept rfl (.kept rfl .nil)))))
  obtain ⟨canvases, -, -, -, events⟩ := decoding_tolerates_extensions
  let failed : Event :=
    ⟨⟨⟨2024, 1, 1, 0, 0, 0, 0⟩, by decide⟩, ⟨1⟩, .runFailed "lost"⟩
  have decoded : Json.decode Graph.shape.decode canvas =
      .ok ⟨[⟨"question", .query, "", Dict.empty⟩], []⟩ := rfl
  have heard : Json.decode Event.decode event = .ok failed := by rfl
  exact ⟨_, failed, decoded, canvases .value _ _ _ rewritten decoded, heard,
    events .value _ _ _ heard more, rfl, rfl⟩

end Canvas
