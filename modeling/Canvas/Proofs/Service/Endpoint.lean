import Canvas.Proofs.Http.Percent
import Canvas.Proofs.Uuid
import Canvas.Service.Endpoint
import Mathlib.Data.List.TakeWhile

/-!
# Where endpoints are

Every endpoint has a method and a target. Identifiers stand in the target in their written form, and
the ids of canvases and nodes with escapes. A request with this method and this target is for the
endpoint, whatever the ids are. Only an empty id has no place in a target: no request is for the runs
of a canvas, or the output of a node, without a name.
-/

namespace Canvas.Service.Endpoint

open Http (Method Request)
open Http.Percent (encode respell IsPlain)

variable {endpoint : Endpoint} {request : Request} {parts : List String} {text : String}

/-- The method of the requests for an endpoint. -/
def method : Endpoint → Method
  | validation | startRun _ => .post
  | _ => .get

/-- The target of the requests for an endpoint. -/
def target : Endpoint → String
  | health => "/health"
  | nodeTypes => "/api/node-types"
  | validation => "/api/validate"
  | startRun canvasId | canvasRuns canvasId => "/api/canvases/" ++ encode canvasId ++ "/runs"
  | run id => "/api/runs/" ++ id.toString
  | steps id => "/api/runs/" ++ id.toString ++ "/steps"
  | stepOutput id nodeId =>
    "/api/runs/" ++ id.toString ++ "/steps/" ++ encode nodeId ++ "/output"
  | eventStream => "/api/events"

/-- Whether no name in the target is empty. -/
def IsNamed : Endpoint → Prop
  | startRun canvasId | canvasRuns canvasId => canvasId ≠ ""
  | stepOutput _ nodeId => nodeId ≠ ""
  | _ => True

instance : (endpoint : Endpoint) → Decidable endpoint.IsNamed
  | startRun canvasId | canvasRuns canvasId => inferInstanceAs (Decidable (canvasId ≠ ""))
  | stepOutput _ nodeId => inferInstanceAs (Decidable (nodeId ≠ ""))
  | health | nodeTypes | validation | run _ | steps _ | eventStream =>
    inferInstanceAs (Decidable True)

/-- What the segments of the target name. -/
def names : Endpoint → List String
  | health => ["health"]
  | nodeTypes => ["api", "node-types"]
  | validation => ["api", "validate"]
  | startRun canvasId | canvasRuns canvasId => ["api", "canvases", canvasId, "runs"]
  | run id => ["api", "runs", id.toString]
  | steps id => ["api", "runs", id.toString, "steps"]
  | stepOutput id nodeId => ["api", "runs", id.toString, "steps", nodeId, "output"]
  | eventStream => ["api", "events"]

section Segments

theorem staysEscaped_spec {byte : UInt8} (h : staysEscaped byte = true) :
    byte < 0x80 ∧ Http.Percent.isPlain byte = false := by
  simp only [staysEscaped, Bool.or_eq_true, decide_eq_true_eq] at h
  rcases h with (rfl | rfl) | rfl
  · decide
  · decide
  · decide

theorem isPlain_uuid (id : Uuid) : IsPlain id.toString := by
  have digits : ∀ n < 16, (Nat.digitChar n).toNat < 0x80 ∧
      Http.Percent.isPlain (UInt8.ofNat (Nat.digitChar n).toNat) = true := by decide
  intro c mem
  rcases Uuid.mem_toString mem with ⟨n, small, rfl⟩ | rfl
  · exact digits n small
  · decide

theorem intercalate_cons (separator : Char) (first : List Char) (rest : List (List Char)) :
    [separator].intercalate (first :: rest) = first ++ rest.flatMap (separator :: ·) := by
  induction rest generalizing first with
  | nil => simp
  | cons second others ih =>
      rw [List.intercalate_cons_cons, ih, List.flatMap_cons]
      simp

/-- The segments of a path in which some texts are written. -/
theorem segments_path (parts : List String) :
    segments (Http.Percent.path parts) = parts.map (respell staysEscaped) := by
  have split : (parts.flatMap fun part => '/' :: (respell staysEscaped part).toList).splitOn '/' =
      [] :: parts.map fun part => (respell staysEscaped part).toList := by
    have whole := intercalate_cons '/' [] (parts.map fun part => (respell staysEscaped part).toList)
    rw [List.nil_append, List.flatMap_map] at whole
    rw [← whole]
    refine List.splitOn_intercalate '/' (fun segment mem => ?_) (List.cons_ne_nil _ _)
    rcases List.mem_cons.1 mem with rfl | mem
    · exact List.not_mem_nil
    · obtain ⟨part, -, rfl⟩ := List.mem_map.1 mem
      exact Http.Percent.slash_not_mem_respell rfl part
  rw [segments, Http.Percent.decodeExcept_path (fun _ h => (staysEscaped_spec h).1)
    (fun _ h => (staysEscaped_spec h).2), String.toList_ofList, split]
  simp

theorem respell_plain (plain : IsPlain text) : respell staysEscaped text = text :=
  Http.Percent.respell_of_plain (fun _ h => (staysEscaped_spec h).1)
    (fun _ h => (staysEscaped_spec h).2) plain

theorem decode_respell (text : String) :
    Http.Percent.decode (respell staysEscaped text) = text :=
  Http.Percent.decode_respell (fun _ h => (staysEscaped_spec h).1) rfl text

theorem not_mem_path (byte : UInt8) (slash : byte ≠ 0x2F) (percent : byte ≠ 0x25)
    (unplain : Http.Percent.isPlain byte = false) (parts : List String) :
    Http.Percent.charOf byte ∉ Http.Percent.path parts := by
  intro mem
  obtain ⟨part, -, mem⟩ := List.mem_flatMap.1 mem
  rcases List.mem_cons.1 mem with same | mem
  · rw [← Char.toNat_inj, Http.Percent.toNat_charOf] at same
    exact slash (UInt8.toNat_inj.1 same)
  · exact Http.Percent.charOf_not_mem_encode percent unplain part mem

/-- A target that is a path has no other parts. -/
theorem path_of_target (h : request.target.toList = Http.Percent.path parts) :
    request.path = Http.Percent.path parts := by
  have query : '?' ∉ Http.Percent.path parts :=
    not_mem_path 0x3F (by decide) (by decide) (by decide) parts
  have fragment : '#' ∉ Http.Percent.path parts :=
    not_mem_path 0x23 (by decide) (by decide) (by decide) parts
  have whole : Request.upToQuery (Http.Percent.path parts) = Http.Percent.path parts := by
    refine List.takeWhile_eq_self_iff.2 fun c mem => decide_eq_true ⟨?_, ?_⟩
    · rintro rfl
      exact query mem
    · rintro rfl
      exact fragment mem
  have noAuthority : Request.behindAuthority? (Http.Percent.path parts) = none := by
    cases parts with
    | nil => rfl
    | cons first rest => rfl
  rw [Request.path, h]
  simp only [noAuthority, whole]

end Segments

/-- The words that segments of targets consist of. -/
def words : List String :=
  ["health", "api", "node-types", "validate", "canvases", "runs", "steps", "output", "events"]

theorem isPlain_words : ∀ word ∈ words, IsPlain word := by decide

theorem encode_words : ∀ word ∈ words, encode word = word := by
  intro word mem
  exact Http.Percent.encode_of_plain (isPlain_words word mem)

theorem respell_words : ∀ word ∈ words, respell staysEscaped word = word := by
  intro word mem
  exact respell_plain (isPlain_words word mem)

theorem toList_target (endpoint : Endpoint) :
    endpoint.target.toList = Http.Percent.path endpoint.names := by
  have plain := encode_words
  have uuid (id : Uuid) := Http.Percent.encode_of_plain (isPlain_uuid id)
  simp only [words, List.forall_mem_cons] at plain
  unfold target names
  cases endpoint with
  | run id | steps id | stepOutput id nodeId => simp [Http.Percent.path, plain, uuid]
  | _ => simp [Http.Percent.path, plain]

theorem named?_respell (text : String) :
    named? (respell staysEscaped text) = if text = "" then none else some text := by
  unfold named?
  rw [decode_respell]
  by_cases empty : text = ""
  · subst empty
    rfl
  · have kept : (respell staysEscaped text).isEmpty = false := by
      refine Bool.eq_false_iff.2 fun isEmpty => empty ?_
      have nothing : Http.Percent.decode "" = "" := by
        have same := decode_respell ""
        rwa [respell_plain (by decide)] at same
      rw [← decode_respell text, String.isEmpty_iff.1 isEmpty, nothing]
    rw [kept, if_neg empty]
    rfl

theorem identified?_respell (text : String) :
    identified? (respell staysEscaped text) = Uuid.ofString? text := by
  rw [identified?, named?_respell]
  by_cases empty : text = ""
  · subst empty
    rfl
  · rw [if_neg empty, Option.bind_some]

theorem identified?_toString (id : Uuid) :
    identified? (respell staysEscaped id.toString) = some id :=
  (identified?_respell id.toString).trans id.ofString?_toString

/-- The endpoint with a method and names is the one whose these are, if none of them is empty. -/
theorem find?_names (endpoint : Endpoint) :
    find? endpoint.method (endpoint.names.map (respell staysEscaped)) =
      if endpoint.IsNamed then some endpoint else none := by
  have plain := respell_words
  simp only [words, List.forall_mem_cons] at plain
  cases endpoint with
  | startRun canvasId | canvasRuns canvasId =>
      by_cases empty : canvasId = "" <;>
        simp [method, names, find?, plain, named?_respell, IsNamed, empty]
  | stepOutput id nodeId =>
      by_cases empty : nodeId = "" <;>
        simp [method, names, find?, plain, named?_respell, identified?_toString, IsNamed, empty]
  | run id | steps id => simp [method, names, find?, plain, identified?_toString, IsNamed]
  | _ => simp [method, names, find?, plain, IsNamed]

/-- What a request is for is a matter of the texts that are written in its target. -/
theorem ofRequest?_of_path (target : request.target.toList = Http.Percent.path parts) :
    ofRequest? request = find? request.method (parts.map (respell staysEscaped)) := by
  rw [ofRequest?, path_of_target target, segments_path]

/-- A request with the method and the target of an endpoint is for this endpoint. With an empty name
in the target it is for none. -/
theorem ofRequest?_of_target (method : request.method = endpoint.method)
    (target : request.target = endpoint.target) :
    ofRequest? request = if endpoint.IsNamed then some endpoint else none := by
  have path : request.target.toList = Http.Percent.path endpoint.names := by
    rw [target, toList_target]
  rw [ofRequest?_of_path path, method, find?_names]

/-- The targets at which runs are asked about, with any text in the place of the id, and the
endpoints that an id leads to there. -/
inductive AsksAbout (text : String) : (target : String) → (asked : Uuid → Endpoint) → Prop
  | run : AsksAbout text ("/api/runs/" ++ encode text) run
  | steps : AsksAbout text ("/api/runs/" ++ encode text ++ "/steps") steps
  | stepOutput (nodeId : String) :
    AsksAbout text ("/api/runs/" ++ encode text ++ "/steps/" ++ encode nodeId ++ "/output")
      (stepOutput · nodeId)

/-- A text in the place of an id leads where the id does that it is read as, in whatever form, and
nowhere if it is not read as an id. -/
theorem ofRequest?_of_asksAbout {asked : Uuid → Endpoint} (method : request.method = .get)
    (asks : AsksAbout text request.target asked) :
    ofRequest? request =
      (Uuid.ofString? text).bind fun id => if (asked id).IsNamed then some (asked id) else none := by
  have plain := encode_words
  have kept := respell_words
  simp only [words, List.forall_mem_cons] at plain kept
  generalize written : request.target = target at asks
  cases asks with
  | run =>
      have path : request.target.toList = Http.Percent.path ["api", "runs", text] := by
        simp [written, Http.Percent.path, plain]
      rw [ofRequest?_of_path path, method]
      simp [find?, kept, identified?_respell, IsNamed, Option.map_eq_bind]
  | steps =>
      have path : request.target.toList = Http.Percent.path ["api", "runs", text, "steps"] := by
        simp [written, Http.Percent.path, plain]
      rw [ofRequest?_of_path path, method]
      simp [find?, kept, identified?_respell, IsNamed, Option.map_eq_bind]
  | stepOutput nodeId =>
      have path : request.target.toList =
          Http.Percent.path ["api", "runs", text, "steps", nodeId, "output"] := by
        simp [written, Http.Percent.path, plain]
      rw [ofRequest?_of_path path, method]
      by_cases empty : nodeId = ""
      · simp [find?, kept, identified?_respell, named?_respell, IsNamed, empty]
      · simp [find?, kept, identified?_respell, named?_respell, IsNamed, empty]

theorem named?_eq_some_iff {segment name : String} :
    named? segment = some name ↔ segment ≠ "" ∧ Http.Percent.decode segment = name := by
  unfold named?
  by_cases empty : segment = ""
  · simp [empty]
  · simp [empty]

/-- A request starts a run of a canvas exactly if it is posted to a path with the name of the canvas
between the words that belong there. -/
theorem ofRequest?_eq_startRun_iff {canvasId : String} :
    ofRequest? request = some (startRun canvasId) ↔
      request.method = .post ∧ ∃ segment,
        segments request.path = ["api", "canvases", segment, "runs"] ∧
        segment ≠ "" ∧ Http.Percent.decode segment = canvasId := by
  simp only [← named?_eq_some_iff]
  unfold ofRequest?
  constructor
  · intro found
    unfold find? at found
    split at found
    case h_4 segment posted path =>
      obtain ⟨name, named, same⟩ := Option.map_eq_some_iff.1 found
      rw [startRun.injEq] at same
      exact ⟨posted, segment, path, named.trans (congrArg some same)⟩
    -- No other endpoint starts a run.
    all_goals simp [Option.map_eq_some_iff, Option.bind_eq_some_iff] at found
  · rintro ⟨method, segment, path, named⟩
    rw [method, path]
    simp [find?, named]

end Canvas.Service.Endpoint
