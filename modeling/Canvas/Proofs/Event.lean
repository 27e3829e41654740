import Canvas.Event
import Canvas.Proofs.Encoding

/-!
# Events read back

Which objects are decoded to a payload or an event is said exactly, by what stands in them under
which names. The data of a payload may stand behind the type or be set aside until the type is
known. An envelope collects time and run wherever they stand and leaves the members of the payload
for later, in their order.

So payloads and events come back from what is written for them.
-/

namespace Canvas

open Json (Arrangement Decoder Document Field Fields Mode Occupies Reads)
open Json (bind_eq_ok_iff map_eq_ok_iff occupies_cons_iff valuesOf valuesOf_cons_of_ne)
open Json (valuesOf_cons_self valuesOf_of_mem)
open Json.Document (ofJson ofMembers)
open Json.Field (restores_natural restores_record restores_string)

variable {arrangement : Arrangement} {mode : Mode}

/-- The string under the name `type` in an object. -/
def Json.type? (json : Json) : Option String :=
  match json.record?.bind (·.find? "type") with
  | some (.str name) => some name
  | _ => none

section Data

/-- Types are written under the names under which observers know them. -/
theorem EventKind.tag_eq_name (kind : EventKind) : kind.tag = kind.name := by
  cases kind
  all_goals rfl

theorem EventKind.reads (kind : EventKind) :
    Reads EventKind.decode (.str kind.tag) kind :=
  Json.reads_choice (by decide) (by cases kind <;> decide)

theorem EventKind.nodup_names (kind : EventKind) : kind.fields.names.Nodup := by
  cases kind
  all_goals decide

theorem StepRef.restores {τ : Type} {rest : Fields τ} {values : τ} (step : StepRef)
    (others : rest.Restores arrangement values) :
    (StepRef.fields rest).Restores arrangement (step.split values) :=
  ⟨Uuid.reads _, restores_string _, NodeType.reads _, restores_string _, restores_natural _ _,
    others⟩

/-- The records that a payload holds. -/
def Payload.records : Payload → List Record
  | runStarted _ input _ => [input]
  | runCompleted output _ => [output]
  | runFailed _ => []
  | stepStarted _ input => [input]
  | stepCompleted _ output _ => [output]
  | stepFailed .. => []
  | stepProgress _ data => [data]

theorem Payload.restores {payload : Payload}
    (kept : ∀ record ∈ payload.records, arrangement.Keeps record) :
    payload.kind.fields.Restores arrangement payload.split := by
  cases payload with
  | runStarted canvasId input totalSteps =>
      exact ⟨restores_string _, restores_record (kept _ List.mem_cons_self),
        restores_natural _ _, trivial⟩
  | runCompleted output totalLatencyMs =>
      exact ⟨restores_record (kept _ List.mem_cons_self), restores_natural _ _, trivial⟩
  | runFailed error => exact ⟨restores_string _, trivial⟩
  | stepStarted step input =>
      exact step.restores ⟨restores_record (kept _ List.mem_cons_self), trivial⟩
  | stepCompleted step output latencyMs =>
      exact step.restores
        ⟨restores_record (kept _ List.mem_cons_self), restores_natural _ _, trivial⟩
  | stepFailed step error latencyMs =>
      exact step.restores ⟨restores_string _, restores_natural _ _, trivial⟩
  | stepProgress nodeId data =>
      exact ⟨restores_string _, restores_record (kept _ List.mem_cons_self), trivial⟩

theorem Payload.reads_data {payload : Payload}
    (kept : ∀ record ∈ payload.records, arrangement.Keeps record) :
    Reads payload.kind.decodeData
      (arrangement.arrange (.obj (payload.kind.fields.encode payload.split))) payload := by
  obtain ⟨members, arranged, decoded⟩ :=
    Fields.exists_decodeMembers payload.kind.nodup_names (Payload.restores kept)
  intro mode atHand
  rw [arranged]
  simp only [ofJson, EventKind.decodeData, decoded mode atHand]
  exact congrArg Except.ok payload.make_split

end Data

section Payloads

/-- Two members stand in one of two orders. -/
theorem eq_or_swap_of_perm {α : Type} {first second : α} {items : List α}
    (h : items.Perm [first, second]) : items = [first, second] ∨ items = [second, first] := by
  obtain ⟨one, other, rfl⟩ := List.length_eq_two.1 h.length_eq
  rcases List.mem_pair.1 (h.mem_iff.1 List.mem_cons_self) with rfl | rfl
  · left
    rw [List.perm_singleton.1 h.cons_inv]
  · right
    have swapped := h.trans (.swap one first [])
    rw [List.perm_singleton.1 swapped.cons_inv]

theorem EventKind.kind_make (kind : EventKind) (values : kind.Carrier) :
    (kind.make values).kind = kind := by
  cases kind <;> rfl

theorem EventKind.kind_of_decodeData {kind : EventKind} {document : Document} {payload : Payload}
    (h : kind.decodeData mode document = .ok payload) : payload.kind = kind := by
  unfold decodeData at h
  split at h
  · obtain ⟨values, -, rfl⟩ := map_eq_ok_iff.1 h
    exact kind.kind_make values
  · obtain ⟨found, -, h⟩ := bind_eq_ok_iff.1 h
    cases h

namespace Payload.Seen

variable {members : List (String × Json)} {seen last : Seen} {payload : Payload} {name : String}
  {json : Json}

/-- Whether a member belongs to a payload. -/
def IsPart (member : String × Json) : Prop := member.1 = "type" ∨ member.1 = "data"

instance : DecidablePred IsPart := fun _ => inferInstanceAs (Decidable (_ ∨ _))

theorem takeAll_cons (part : IsPart (name, json)) :
    seen.takeAll mode (ofMembers ((name, json) :: members)) =
      seen.take mode name (ofJson json) >>= fun next => next.takeAll mode (ofMembers members) := by
  rw [ofMembers, takeAll]
  exact if_pos part

theorem takeAll_pass (other : ¬ IsPart (name, json)) :
    seen.takeAll mode (ofMembers ((name, json) :: members)) =
      seen.takeAll mode (ofMembers members) := by
  rw [ofMembers, takeAll, Document.skip_ofJson]
  exact if_neg other

/-- What is no part is passed over. -/
theorem takeAll_filter (mode : Mode) (seen : Seen) (members : List (String × Json)) :
    seen.takeAll mode (ofMembers members) =
      seen.takeAll mode (ofMembers (members.filter (IsPart ·))) := by
  induction members generalizing seen with
  | nil => rfl
  | cons member rest ih =>
      obtain ⟨name, json⟩ := member
      by_cases part : IsPart (name, json)
      · rw [List.filter_cons_of_pos (by simpa using part), takeAll_cons part, takeAll_cons part]
        exact congrArg _ (funext ih)
      · rw [List.filter_cons_of_neg (by simpa using part), takeAll_pass part, ih]

/-- Once type and data are seen no other part may follow. -/
theorem takeAll_whole_iff {other : Payload} (parts : ∀ member ∈ members, IsPart member) :
    (whole payload).takeAll mode (ofMembers members) = .ok (whole other) ↔
      members = [] ∧ payload = other := by
  cases members with
  | nil => simp [ofMembers, takeAll]
  | cons member rest =>
      rw [takeAll_cons (parts _ List.mem_cons_self)]
      refine iff_of_false (fun h => ?_) (by simp)
      cases h

/-- Behind the type stands the data. -/
theorem takeAll_onlyKind_iff {kind : EventKind} (parts : ∀ member ∈ members, IsPart member) :
    (onlyKind kind).takeAll mode (ofMembers members) = .ok (whole payload) ↔
      ∃ content, members = [("data", content)] ∧
        kind.decodeData mode (ofJson content) = .ok payload := by
  cases members with
  | nil => simp [ofMembers, takeAll]
  | cons member rest =>
      obtain ⟨name, json⟩ := member
      obtain ⟨part, behind⟩ := List.forall_mem_cons.1 parts
      rw [takeAll_cons part, bind_eq_ok_iff]
      rcases part with rfl | rfl
      · simp [take]
      · constructor
        · rintro ⟨next, taken, later⟩
          obtain ⟨payload, read, rfl⟩ := map_eq_ok_iff.1 taken
          obtain ⟨rfl, rfl⟩ := (takeAll_whole_iff behind).1 later
          exact ⟨json, rfl, read⟩
        · rintro ⟨content, same, read⟩
          cases same
          exact ⟨_, map_eq_ok_iff.2 ⟨payload, read, rfl⟩, rfl⟩

/-- Behind the data stands the type. -/
theorem takeAll_onlyData_iff {document : Document} (parts : ∀ member ∈ members, IsPart member) :
    (onlyData document).takeAll mode (ofMembers members) = .ok (whole payload) ↔
      ∃ type, members = [("type", type)] ∧ EventKind.decode mode (ofJson type) = .ok payload.kind ∧
        payload.kind.decodeData mode.buffered document = .ok payload := by
  cases members with
  | nil => simp [ofMembers, takeAll]
  | cons member rest =>
      obtain ⟨name, json⟩ := member
      obtain ⟨part, behind⟩ := List.forall_mem_cons.1 parts
      rw [takeAll_cons part, bind_eq_ok_iff]
      rcases part with rfl | rfl
      · constructor
        · rintro ⟨next, taken, later⟩
          obtain ⟨kind, read, taken⟩ := bind_eq_ok_iff.1 taken
          obtain ⟨payload, data, taken⟩ := bind_eq_ok_iff.1 taken
          cases taken
          obtain ⟨rfl, rfl⟩ := (takeAll_whole_iff behind).1 later
          obtain rfl := EventKind.kind_of_decodeData data
          exact ⟨json, rfl, read, data⟩
        · rintro ⟨type, same, read, data⟩
          cases same
          exact ⟨whole payload, bind_eq_ok_iff.2 ⟨_, read, bind_eq_ok_iff.2 ⟨_, data, rfl⟩⟩, rfl⟩
      · simp [take]

/-- A payload is its type and its data, in either order. Data that comes first is set aside. -/
theorem takeAll_nothing_iff :
    nothing.takeAll mode (ofMembers members) = .ok (whole payload) ↔
      ∃ type content, EventKind.decode mode (ofJson type) = .ok payload.kind ∧
        (members.filter (IsPart ·) = [("type", type), ("data", content)] ∧
            payload.kind.decodeData mode (ofJson content) = .ok payload ∨
          members.filter (IsPart ·) = [("data", content), ("type", type)] ∧
            payload.kind.decodeData mode.buffered (ofJson content) = .ok payload) := by
  rw [takeAll_filter]
  have parts : ∀ member ∈ members.filter (IsPart ·), IsPart member :=
    fun member listed => of_decide_eq_true (List.mem_filter.1 listed).2
  generalize members.filter (IsPart ·) = listed at parts ⊢
  cases listed with
  | nil => simp [ofMembers, takeAll]
  | cons member rest =>
      obtain ⟨name, json⟩ := member
      obtain ⟨part, behind⟩ := List.forall_mem_cons.1 parts
      rw [takeAll_cons part, bind_eq_ok_iff]
      rcases part with rfl | rfl
      · constructor
        · rintro ⟨next, taken, later⟩
          obtain ⟨kind, read, rfl⟩ := map_eq_ok_iff.1 taken
          obtain ⟨content, rfl, data⟩ := (takeAll_onlyKind_iff behind).1 later
          obtain rfl := EventKind.kind_of_decodeData data
          exact ⟨json, content, read, .inl ⟨rfl, data⟩⟩
        · rintro ⟨type, content, read, ⟨same, data⟩ | ⟨same, -⟩⟩
          · cases same
            refine ⟨_, map_eq_ok_iff.2 ⟨_, read, rfl⟩, ?_⟩
            exact (takeAll_onlyKind_iff behind).2 ⟨content, rfl, data⟩
          · simp at same
      · constructor
        · rintro ⟨next, taken, later⟩
          obtain ⟨document, buffered, rfl⟩ := map_eq_ok_iff.1 taken
          obtain rfl := Except.ok.inj ((Document.buffer_ofJson json).symm.trans buffered)
          obtain ⟨type, rfl, read, data⟩ := (takeAll_onlyData_iff behind).1 later
          exact ⟨type, json, read, .inr ⟨rfl, data⟩⟩
        · rintro ⟨type, content, read, ⟨same, -⟩ | ⟨same, data⟩⟩
          · simp at same
          · cases same
            refine ⟨_, map_eq_ok_iff.2 ⟨_, Document.buffer_ofJson _, rfl⟩, ?_⟩
            exact (takeAll_onlyData_iff behind).2 ⟨type, rfl, read, data⟩

theorem finish_eq_ok_iff : seen.finish = .ok payload ↔ seen = whole payload := by
  cases seen <;> simp [finish]

/-- Type and data come back in either order. -/
theorem takeAll_of_perm {content : Json} (atHand : mode.isText = false)
    (reads : Reads payload.kind.decodeData content payload)
    (written : (members.filter (IsPart ·)).Perm
      [("type", .str payload.kind.tag), ("data", content)]) :
    nothing.takeAll mode (ofMembers members) = .ok (.whole payload) := by
  refine takeAll_nothing_iff.2 ⟨_, content, EventKind.reads payload.kind mode atHand, ?_⟩
  rcases eq_or_swap_of_perm written with typeFirst | dataFirst
  · exact .inl ⟨typeFirst, reads mode atHand⟩
  · exact .inr ⟨dataFirst, reads mode.buffered atHand⟩

end Payload.Seen

theorem Payload.arranged_members (payload : Payload) :
    payload.members.map (fun member => (member.1, arrangement.arrange member.2)) =
      [("type", .str payload.kind.tag),
        ("data", arrangement.arrange (.obj (payload.kind.fields.encode payload.split)))] := by
  simp [members]

theorem Payload.reads {payload : Payload}
    (kept : ∀ record ∈ payload.records, arrangement.Keeps record) :
    Reads Payload.decode (arrangement.arrange payload.encode) payload := by
  intro mode atHand
  obtain ⟨members, arranged, written⟩ := arrangement.obj payload.members (by simp [members])
  rw [arranged_members] at written
  have parts := written.filter (Seen.IsPart ·)
  rw [encode, arranged]
  simp only [ofJson, decode, Seen.takeAll_of_perm atHand (reads_data kept) parts]
  rfl

/-- The codec of payloads. -/
def Payload.codec : Codec Payload where
  encode := encode
  decode := decode
  records := records
  times _ := []

theorem Payload.roundTrips : codec.RoundTrips := by
  apply Codec.roundTrips_of_reads
  intro payload _ arrangement kept
  exact reads kept

end Payloads

section Events

namespace Event.Envelope

variable {envelope next last : Envelope} {name : String} {json : Json}
  {members : List (String × Json)}

/-- The members of an envelope that are left for its payload. -/
def remaining (members : List (String × Json)) : List (String × Json) :=
  members.filter fun member => member.1 ≠ "timestamp" ∧ member.1 ≠ "runId"

theorem take_timestamp_iff :
    envelope.take mode "timestamp" (ofJson json) = .ok next ↔
      envelope.timestamp = none ∧
        ∃ time, Timestamp.decode mode (ofJson json) = .ok time ∧
          next = { envelope with timestamp := some time } := by
  cases place : envelope.timestamp with
  | some time => simp [take, place]
  | none =>
      rw [take, if_pos rfl, place, if_neg (by simp), bind_eq_ok_iff]
      simp [pure, Except.pure, eq_comm]

theorem take_runId_iff :
    envelope.take mode "runId" (ofJson json) = .ok next ↔
      envelope.runId = none ∧
        ∃ id, Uuid.decode mode (ofJson json) = .ok id ∧
          next = { envelope with runId := some id } := by
  cases place : envelope.runId with
  | some id => simp [take, place]
  | none =>
      rw [take, if_neg (by decide), if_pos rfl, place, if_neg (by simp), bind_eq_ok_iff]
      simp [pure, Except.pure, eq_comm]

theorem take_other (time : name ≠ "timestamp") (run : name ≠ "runId") :
    envelope.take mode name (ofJson json) =
      .ok { envelope with others := envelope.others ++ [(.ok name, ofJson json)] } := by
  simp [take, time, run, Document.buffer_ofJson, bind, Except.bind, pure, Except.pure]

theorem takeAll_cons_iff :
    envelope.takeAll mode (ofMembers ((name, json) :: members)) = .ok last ↔
      ∃ next, envelope.take mode name (ofJson json) = .ok next ∧
        next.takeAll mode (ofMembers members) = .ok last := by
  show (envelope.take mode name (ofJson json) >>=
    fun next => next.takeAll mode (ofMembers members)) = .ok last ↔ _
  exact bind_eq_ok_iff

/-- Time and run are taken wherever they stand. The other members are set aside in their order. -/
theorem takeAll_iff :
    envelope.takeAll mode (ofMembers members) = .ok last ↔
      Occupies Timestamp.decode mode envelope.timestamp (valuesOf "timestamp" members)
          last.timestamp ∧
        Occupies Uuid.decode mode envelope.runId (valuesOf "runId" members) last.runId ∧
        last.others = envelope.others ++ ofMembers (remaining members) := by
  induction members generalizing envelope with
  | nil =>
      obtain ⟨timestamp, runId, others⟩ := last
      constructor
      · intro h
        cases h
        exact ⟨rfl, rfl, (List.append_nil _).symm⟩
      · rintro ⟨rfl, rfl, left⟩
        rw [show others = envelope.others from left.trans (List.append_nil _)]
        rfl
  | cons member rest ih =>
      obtain ⟨name, json⟩ := member
      rw [takeAll_cons_iff]
      by_cases time : name = "timestamp"
      · subst time
        have left : remaining (("timestamp", json) :: rest) = remaining rest := by simp [remaining]
        rw [valuesOf_cons_self, valuesOf_cons_of_ne (by decide), left, occupies_cons_iff]
        simp only [take_timestamp_iff]
        constructor
        · rintro ⟨_, ⟨vacant, time, read, rfl⟩, later⟩
          obtain ⟨times, ids, others⟩ := ih.1 later
          exact ⟨⟨vacant, time, read, times⟩, ids, others⟩
        · rintro ⟨⟨vacant, time, read, times⟩, ids, others⟩
          exact ⟨_, ⟨vacant, time, read, rfl⟩, ih.2 ⟨times, ids, others⟩⟩
      · by_cases run : name = "runId"
        · subst run
          have left : remaining (("runId", json) :: rest) = remaining rest := by simp [remaining]
          rw [valuesOf_cons_self, valuesOf_cons_of_ne (by decide), left, occupies_cons_iff]
          simp only [take_runId_iff]
          constructor
          · rintro ⟨_, ⟨vacant, id, read, rfl⟩, later⟩
            obtain ⟨times, ids, others⟩ := ih.1 later
            exact ⟨times, ⟨vacant, id, read, ids⟩, others⟩
          · rintro ⟨times, ⟨vacant, id, read, ids⟩, others⟩
            exact ⟨_, ⟨vacant, id, read, rfl⟩, ih.2 ⟨times, ids, others⟩⟩
        · have left : remaining ((name, json) :: rest) = (name, json) :: remaining rest := by
            simp [remaining, time, run]
          rw [valuesOf_cons_of_ne time, valuesOf_cons_of_ne run, take_other time run, left]
          simp only [Except.ok.injEq, exists_eq_left', ih, ofMembers, List.append_assoc,
            List.cons_append, List.nil_append]

/-- The payload passes over time and run. -/
theorem takeAll_remaining (seen : Payload.Seen) :
    seen.takeAll mode (ofMembers (remaining members)) = seen.takeAll mode (ofMembers members) := by
  rw [Payload.Seen.takeAll_filter, Payload.Seen.takeAll_filter mode seen members, remaining,
    List.filter_filter]
  congr 2
  refine List.filter_congr fun member _ => ?_
  by_cases part : Payload.Seen.IsPart member
  · rcases part with part | part
    · simp [Payload.Seen.IsPart, part]
    · simp [Payload.Seen.IsPart, part]
  · simp [part]

end Event.Envelope

/-- The codec of events. -/
def Event.codec : Codec Event where
  encode := encode
  decode := decode
  records event := event.payload.records
  times event := [event.timestamp]

/-- An object is decoded to an event exactly if time and run stand in it once each, and it is
decoded to the payload. -/
theorem Event.decode_obj_iff {event : Event} {members : List (String × Json)} :
    Event.decode mode (ofJson (.obj members)) = .ok event ↔
      Occupies Timestamp.decode mode none (valuesOf "timestamp" members) (some event.timestamp) ∧
        Occupies Uuid.decode mode none (valuesOf "runId" members) (some event.runId) ∧
        Payload.Seen.nothing.takeAll mode.buffered (ofMembers members) =
          .ok (.whole event.payload) := by
  rw [← Envelope.takeAll_remaining]
  constructor
  · intro decoded
    obtain ⟨⟨time?, run?, others⟩, taken, decoded⟩ := bind_eq_ok_iff.1 decoded
    obtain ⟨times, runs, left⟩ := Envelope.takeAll_iff.1 taken
    obtain ⟨_, -, decoded⟩ := bind_eq_ok_iff.1 decoded
    obtain ⟨time, timed, decoded⟩ := bind_eq_ok_iff.1 decoded
    obtain ⟨run, named, decoded⟩ := bind_eq_ok_iff.1 decoded
    obtain ⟨seen, parts, decoded⟩ := bind_eq_ok_iff.1 decoded
    obtain ⟨payload, finished, decoded⟩ := bind_eq_ok_iff.1 decoded
    cases decoded
    obtain rfl : others = ofMembers (Envelope.remaining members) := left
    obtain rfl : time? = some time := by
      cases time? with
      | none => cases timed
      | some time => exact congrArg some (Except.ok.inj timed)
    obtain rfl : run? = some run := by
      cases run? with
      | none => cases named
      | some run => exact congrArg some (Except.ok.inj named)
    exact ⟨times, runs, Payload.Seen.finish_eq_ok_iff.1 finished ▸ parts⟩
  · rintro ⟨times, runs, parts⟩
    have taken : Envelope.takeAll mode ⟨none, none, []⟩ (ofMembers members) =
        .ok ⟨some event.timestamp, some event.runId, ofMembers (Envelope.remaining members)⟩ :=
      Envelope.takeAll_iff.2 ⟨times, runs, rfl⟩
    refine bind_eq_ok_iff.2 ⟨_, taken, bind_eq_ok_iff.2 ⟨(), rfl, ?_⟩⟩
    refine bind_eq_ok_iff.2 ⟨_, rfl, bind_eq_ok_iff.2 ⟨_, rfl, ?_⟩⟩
    exact bind_eq_ok_iff.2 ⟨_, parts, rfl⟩

theorem Event.reads {event : Event}
    (known : 0 ≤ event.timestamp.year ∧ event.timestamp.year ≤ 9999)
    (kept : ∀ record ∈ event.payload.records, arrangement.Keeps record) :
    Reads decode (arrangement.arrange event.encode) event := by
  intro mode atHand
  obtain ⟨members, arranged, written⟩ := arrangement.obj
    (("timestamp", event.timestamp.encode) :: ("runId", event.runId.encode) ::
      event.payload.members) (by simp [Payload.members])
  rw [List.map_cons, List.map_cons, Payload.arranged_members] at written
  have unique : (members.map (·.1)).Nodup := (written.map (·.1)).nodup_iff.2 (by simp)
  rw [encode, arranged, decode_obj_iff]
  refine ⟨?_, ?_, ?_⟩
  · rw [valuesOf_of_mem unique (written.mem_iff.2 List.mem_cons_self), occupies_cons_iff]
    exact ⟨rfl, _, Timestamp.reads known mode atHand, rfl⟩
  · have listed := written.mem_iff.2 (List.mem_cons_of_mem _ List.mem_cons_self)
    rw [valuesOf_of_mem unique listed, occupies_cons_iff]
    exact ⟨rfl, _, Uuid.reads _ mode atHand, rfl⟩
  · have parts := written.filter (Payload.Seen.IsPart ·)
    exact Payload.Seen.takeAll_of_perm atHand (Payload.reads_data kept) parts

theorem Event.roundTrips : codec.RoundTrips := by
  apply Codec.roundTrips_of_reads
  intro event timely arrangement kept
  exact reads (timely _ List.mem_cons_self) kept

end Events

section Types

/-- A string under the name `type` stays there, in whatever order the members stand. -/
theorem Json.type?_arrange {members : List (String × Json)} {name : String}
    (distinct : (members.map (·.1)).Nodup) (listed : ("type", .str name) ∈ members) :
    (arrangement.arrange (.obj members)).type? = some name := by
  rw [type?, arrangement.find?_arrange distinct listed, arrangement.arrange_str]

theorem Payload.type?_arrange (payload : Payload) :
    (arrangement.arrange payload.encode).type? = some payload.kind.name := by
  apply Json.type?_arrange
  · simp [members]
  · simp [members, payload.kind.tag_eq_name]

theorem Event.type?_arrange (event : Event) :
    (arrangement.arrange event.encode).type? = some event.kind := by
  apply Json.type?_arrange
  · simp [Payload.members]
  · simp [Payload.members, kind, event.payload.kind.tag_eq_name]

end Types

/-- Canvases with their parts, findings, runs, step records, payloads and events come back from what
is written for them, and what is written under `type` is the type of the event. -/
theorem codecs_roundTrip :
    (Node.codec.RoundTrips ∧ Edge.codec.RoundTrips ∧ Graph.codec.RoundTrips) ∧
    (Issue.codec.RoundTrips ∧ Findings.codec.RoundTrips) ∧
    (Run.codec.RoundTrips ∧ StepRecord.codec.RoundTrips) ∧
    (Payload.codec.RoundTrips ∧ Event.codec.RoundTrips) ∧
    ∀ arrangement : Arrangement,
      (∀ payload : Payload,
        (arrangement.arrange payload.encode).type? = some payload.kind.name) ∧
      (∀ event : Event, (arrangement.arrange event.encode).type? = some event.kind) := by
  refine ⟨⟨Node.roundTrips, Edge.roundTrips, Graph.roundTrips⟩,
    ⟨Issue.roundTrips, Findings.roundTrips⟩, ⟨Run.roundTrips, StepRecord.roundTrips⟩,
    ⟨Payload.roundTrips, Event.roundTrips⟩, fun arrangement => ⟨?_, ?_⟩⟩
  · intro payload
    exact payload.type?_arrange
  · intro event
    exact event.type?_arrange

/-- Progress made in a leap second, with data that is named as the envelope names it. With the
members sorted by name the data comes before the type. -/
theorem leap_second_roundTrip :
    let data := Dict.ofList [("type", Json.null), ("data", .obj [("done", .float 0.5)])]
    let event : Event :=
      ⟨⟨⟨2016, 12, 31, 23, 59, 60, 120000⟩, by decide⟩, ⟨0xF00D⟩, .stepProgress "answer" data⟩
    Json.decode Event.decode event.encode = .ok event ∧
      Json.decode Event.decode (Json.normalize event.encode) = .ok event ∧
      event.encode.type? = some "step:progress" := by
  intro data event
  obtain ⟨-, -, -, ⟨-, roundTrips⟩, types⟩ := codecs_roundTrip
  have timely : Event.codec.Timely event := by
    intro time held
    rw [List.mem_singleton.1 held]
    decide
  have kept : ∀ record ∈ Event.codec.records event, Arrangement.byName.Keeps record := by
    intro record held
    rw [List.mem_singleton.1 held]
    rfl
  obtain ⟨written, rearranged⟩ := roundTrips event timely
  exact ⟨written, rearranged .byName kept, (types .asWritten).2 event⟩

end Canvas
