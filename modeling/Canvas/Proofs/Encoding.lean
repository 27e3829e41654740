import Canvas.Graph.Basic
import Canvas.Issue
import Canvas.Proofs.Json.Shape
import Canvas.Proofs.Timestamp
import Canvas.Proofs.Uuid
import Canvas.Run.Basic

/-!
# Canvases, findings and runs read back

A `Codec` is a way in which the values of a type are written in JSON and read again. It round-trips
if every value comes back, as it was written and with the members of all objects in any other order.
The times that a value holds must be of years that four digits hold; and the other order must leave
the records that it holds as they are, for their members are part of the value.
-/

namespace Canvas

open Json (Arrangement Decoder Field Fields Reads Shape)

/-- How the values of a type are written and read, and the records and times that they hold. -/
structure Codec (α : Type) where
  encode : α → Json
  decode : Decoder α
  records : α → List Record
  times : α → List Timestamp

namespace Codec

variable {α : Type}

/-- Whether the times of a value are of the years 0 to 9999. -/
def Timely (codec : Codec α) (value : α) : Prop :=
  ∀ time ∈ codec.times value, 0 ≤ time.year ∧ time.year ≤ 9999

/-- Whether every value comes back from what is written for it, in whatever order its members
stand. -/
def RoundTrips (codec : Codec α) : Prop :=
  ∀ value, codec.Timely value →
    Json.decode codec.decode (codec.encode value) = .ok value ∧
    ∀ arrangement : Arrangement, (∀ record ∈ codec.records value, arrangement.Keeps record) →
      Json.decode codec.decode (arrangement.arrange (codec.encode value)) = .ok value

theorem roundTrips_of_reads {codec : Codec α}
    (h : ∀ value, codec.Timely value → ∀ arrangement : Arrangement,
      (∀ record ∈ codec.records value, arrangement.Keeps record) →
      Reads codec.decode (arrangement.arrange (codec.encode value)) value) : codec.RoundTrips := by
  intro value timely
  have reads := h value timely
  constructor
  · exact reads .asWritten (fun record _ => Arrangement.keeps_asWritten record) .value rfl
  · exact fun arrangement kept => reads arrangement kept .value rfl

end Codec

variable {arrangement : Arrangement}

section Names

theorem NodeType.reads (type : NodeType) :
    Reads NodeType.decode (arrangement.arrange type.encode) type := by
  rw [encode, arrangement.arrange_str]
  exact Json.reads_choice (by decide) (mem_all type)

theorem Status.reads (status : Status) :
    Reads Status.decode (arrangement.arrange status.encode) status := by
  rw [encode, arrangement.arrange_str]
  exact Json.reads_choice (by decide) (by cases status <;> decide)

theorem IssueCode.reads (code : IssueCode) :
    Reads IssueCode.decode (arrangement.arrange code.encode) code := by
  rw [encode, arrangement.arrange_str]
  exact Json.reads_choice (by decide) (by cases code <;> decide)

theorem Uuid.reads (id : Uuid) : Reads Uuid.decode (arrangement.arrange id.encode) id := by
  rw [encode, arrangement.arrange_str]
  exact Json.reads_notated (ofString?_toString id)

theorem Timestamp.reads {time : Timestamp} (known : 0 ≤ time.year ∧ time.year ≤ 9999) :
    Reads Timestamp.decode (arrangement.arrange time.encode) time := by
  rw [encode, arrangement.arrange_str]
  exact Json.reads_notated (ofString?_toString known)

end Names

section Options

variable {name : String}

theorem reads_text (text : String) :
    Reads Json.string (arrangement.arrange (.str text)) text ∧
      arrangement.arrange (.str text) ≠ .null := by
  rw [arrangement.arrange_str]
  exact ⟨Json.reads_string text, Json.noConfusion⟩

theorem restores_optional_string (text : Option String) :
    (Field.optional name Json.string .str).Restores arrangement text :=
  Field.restores_optional fun s _ => reads_text s

theorem restores_omittable_string (text : Option String) :
    (Field.omittable name Json.string .str).Restores arrangement text :=
  Field.restores_omittable fun s _ => reads_text s

theorem restores_optional_natural (width : String) (number : Option Nat) :
    (Field.optional name (Json.natural width) fun n => .int n).Restores arrangement number := by
  apply Field.restores_optional
  intro n _
  rw [arrangement.arrange_int]
  exact ⟨Json.reads_natural width n, Json.noConfusion⟩

theorem restores_optional_record {record : Option Record}
    (kept : ∀ item ∈ record.toList, arrangement.Keeps item) :
    (Field.optional name Json.record .ofRecord).Restores arrangement record := by
  apply Field.restores_optional
  intro item held
  rw [kept item (Option.mem_toList.2 held)]
  exact ⟨Json.reads_record item, Json.noConfusion⟩

theorem restores_optional_time {time : Option Timestamp}
    (known : ∀ item ∈ time.toList, 0 ≤ item.year ∧ item.year ≤ 9999) :
    (Field.optional name Timestamp.decode Timestamp.encode).Restores arrangement time := by
  apply Field.restores_optional
  intro item held
  refine ⟨Timestamp.reads (known item (Option.mem_toList.2 held)), ?_⟩
  rw [Timestamp.encode, arrangement.arrange_str]
  exact Json.noConfusion

end Options

open Json.Field (restores_boolean restores_defaulted restores_list restores_record restores_string)

section Graphs

/-- The codec of nodes. -/
def Node.codec : Codec Node where
  encode := Node.shape.encode
  decode := Node.shape.decode
  records node := [node.config]
  times _ := []

/-- The codec of edges. -/
def Edge.codec : Codec Edge where
  encode := Edge.shape.encode
  decode := Edge.shape.decode
  records _ := []
  times _ := []

/-- The codec of graphs. -/
def Graph.codec : Codec Graph where
  encode := Graph.shape.encode
  decode := Graph.shape.decode
  records graph := graph.nodes.map (·.config)
  times _ := []

theorem Node.reads {node : Node} (kept : arrangement.Keeps node.config) :
    Reads Node.shape.decode (arrangement.arrange (Node.shape.encode node)) node := by
  apply Shape.reads
  · decide
  · refine ⟨restores_string _, NodeType.reads _, restores_defaulted ?_, restores_defaulted ?_,
      trivial⟩
    · rw [arrangement.arrange_str]
      exact Json.reads_string node.label
    · rw [kept]
      exact Json.reads_record node.config

theorem Edge.reads (edge : Edge) :
    Reads Edge.shape.decode (arrangement.arrange (Edge.shape.encode edge)) edge := by
  apply Shape.reads
  · decide
  · exact ⟨restores_string _, restores_string _, restores_string _, trivial⟩

theorem Node.roundTrips : Node.codec.RoundTrips := by
  apply Codec.roundTrips_of_reads
  intro node _ arrangement kept
  exact Node.reads (kept _ List.mem_cons_self)

theorem Edge.roundTrips : Edge.codec.RoundTrips := by
  apply Codec.roundTrips_of_reads
  intro edge _ arrangement _
  exact Edge.reads edge

theorem Graph.roundTrips : Graph.codec.RoundTrips := by
  apply Codec.roundTrips_of_reads
  intro graph _ arrangement kept
  apply Shape.reads
  · decide
  · refine ⟨restores_list ?_, restores_list ?_, trivial⟩
    · intro node hnode
      exact Node.reads (kept _ (List.mem_map_of_mem hnode))
    · intro edge _
      exact Edge.reads edge

end Graphs

section Findings

/-- The codec of issues. -/
def Issue.codec : Codec Issue where
  encode := Issue.shape.encode
  decode := Issue.shape.decode
  records _ := []
  times _ := []

/-- The codec of findings. -/
def Findings.codec : Codec Findings where
  encode := Findings.shape.encode
  decode := Findings.shape.decode
  records _ := []
  times _ := []

theorem Issue.reads (issue : Issue) :
    Reads Issue.shape.decode (arrangement.arrange (Issue.shape.encode issue)) issue := by
  apply Shape.reads
  · decide
  · exact ⟨IssueCode.reads _, restores_string _, restores_omittable_string _,
      restores_omittable_string _, trivial⟩

theorem Issue.roundTrips : Issue.codec.RoundTrips := by
  apply Codec.roundTrips_of_reads
  intro issue _ arrangement _
  exact Issue.reads issue

theorem Findings.roundTrips : Findings.codec.RoundTrips := by
  apply Codec.roundTrips_of_reads
  intro findings _ arrangement _
  apply Shape.reads
  · decide
  · exact ⟨restores_boolean _, restores_list fun issue _ => Issue.reads issue,
      restores_list fun issue _ => Issue.reads issue, trivial⟩

end Findings

section Runs

/-- The codec of runs. -/
def Run.codec : Codec Run where
  encode := Run.shape.encode
  decode := Run.shape.decode
  records run := run.input :: run.output.toList
  times run := run.startedAt :: run.completedAt.toList

/-- The codec of step records. -/
def StepRecord.codec : Codec StepRecord where
  encode := StepRecord.shape.encode
  decode := StepRecord.shape.decode
  records step := step.input :: step.output.toList
  times step := step.startedAt :: step.completedAt.toList

theorem Run.roundTrips : Run.codec.RoundTrips := by
  apply Codec.roundTrips_of_reads
  intro run timely arrangement kept
  obtain ⟨started, ended⟩ := List.forall_mem_cons.1 timely
  obtain ⟨input, output⟩ := List.forall_mem_cons.1 kept
  apply Shape.reads
  · decide
  · exact ⟨Uuid.reads _, restores_string _, restores_record input, Status.reads _,
      restores_optional_record output, restores_optional_string _, Timestamp.reads started,
      restores_optional_time ended, trivial⟩

theorem StepRecord.roundTrips : StepRecord.codec.RoundTrips := by
  apply Codec.roundTrips_of_reads
  intro step timely arrangement kept
  obtain ⟨started, ended⟩ := List.forall_mem_cons.1 timely
  obtain ⟨input, output⟩ := List.forall_mem_cons.1 kept
  apply Shape.reads
  · decide
  · exact ⟨Uuid.reads _, Uuid.reads _, restores_string _, NodeType.reads _, restores_string _,
      Status.reads _, restores_record input, restores_optional_record output,
      restores_optional_string _, restores_optional_natural _ _, Timestamp.reads started,
      restores_optional_time ended, trivial⟩

end Runs

end Canvas
