import Canvas.Proofs.Run.Succession
import Canvas.Proofs.Service.Endpoint
import Canvas.Service.Server

/-!
# What a server remembers

A server is changed only by the requests that start runs, and each of these adds its run to the
tracer, however the run ends. So after any requests the tracer is the one that recorded these runs
one after the other, and what is answered to later requests follows from what is known about it.

The times are left out where runs and steps are compared: an event is stamped a moment after the
record that it is about.
-/

namespace Canvas.Service.Server

open Http (Request Response)

/-- What every server executes runs with. -/
def orchestrator : Orchestrator := ⟨.echoing, .standard⟩

/-- Whether a request is posted to the runs of a canvas: its path has the name of the canvas between
the words that belong there. -/
def PostsTo (request : Request) (canvasId : String) : Prop :=
  request.method = .post ∧ ∃ segment,
    Endpoint.segments request.path = ["api", "canvases", segment, "runs"] ∧
    segment ≠ "" ∧ Http.Percent.decode segment = canvasId

/-- The run that a request starts, if it starts one: it is posted to the runs of a canvas, and its
body can be decoded. -/
def commission? (draws : Draws) (request : Request) : Option Commission :=
  match Endpoint.ofRequest? request with
  | some (.startRun canvasId) =>
    (request.decodeBody RunRequest.shape.decode).toOption.map fun body =>
      ⟨orchestrator, draws, canvasId, body.graph, body.input⟩
  | _ => none

/-- The runs that requests start, in order. -/
def commissions (requests : List (Draws × Request)) : List Commission :=
  requests.filterMap fun (draws, request) => commission? draws request

theorem tracer_publish (events : List Event) (engine : Engine) :
    (events.foldl Engine.publish engine).tracer = engine.tracer.recordAll events := by
  induction events generalizing engine with
  | nil => rfl
  | cons event rest ih => exact ih (engine.publish event)

variable {server : Server} {draws : Draws} {request : Request} {commission : Commission}
variable {requests : List (Draws × Request)}

theorem commission?_eq_some_iff :
    commission? draws request = some commission ↔
      ∃ canvasId body, Endpoint.ofRequest? request = some (.startRun canvasId) ∧
        request.decodeBody RunRequest.shape.decode = .ok body ∧
        commission = ⟨orchestrator, draws, canvasId, body.graph, body.input⟩ := by
  unfold commission?
  cases asked : Endpoint.ofRequest? request with
  | none => simp
  | some endpoint =>
      cases endpoint with
      | startRun canvasId =>
          cases decoded : request.decodeBody RunRequest.shape.decode with
          | error refusal => simp [Except.toOption]
          | ok body => simp [Except.toOption, eq_comm]
      | _ => simp

/-- A request starts a run exactly if it is posted to the runs of a canvas with a body that can be
decoded. The run is that of the canvas and the input in the body. -/
theorem commission?_eq_some_iff_posts :
    commission? draws request = some commission ↔
      ∃ canvasId body, PostsTo request canvasId ∧
        request.decodeBody RunRequest.shape.decode = .ok body ∧
        commission = ⟨orchestrator, draws, canvasId, body.graph, body.input⟩ := by
  simp only [commission?_eq_some_iff, Endpoint.ofRequest?_eq_startRun_iff, PostsTo]

/-- What is posted to the target of the runs of a canvas is posted to its runs. -/
theorem postsTo_of_target {canvasId : String} (named : canvasId ≠ "")
    (method : request.method = .post)
    (target : request.target = (Endpoint.startRun canvasId).target) : PostsTo request canvasId := by
  have asked : Endpoint.ofRequest? request = some (.startRun canvasId) :=
    (Endpoint.ofRequest?_of_target method target).trans (if_pos named)
  exact Endpoint.ofRequest?_eq_startRun_iff.1 asked

theorem commissions_cons_of_none (h : commission? draws request = none) :
    commissions ((draws, request) :: requests) = commissions requests :=
  List.filterMap_cons_none h

theorem commissions_cons_of_some (h : commission? draws request = some commission) :
    commissions ((draws, request) :: requests) = commission :: commissions requests :=
  List.filterMap_cons_some h

/-- A request that starts no run leaves the server as it is. -/
theorem handle_of_none (h : commission? draws request = none) :
    (server.handle draws request).2 = server := by
  unfold handle
  cases asked : Endpoint.ofRequest? request with
  | none => rfl
  | some endpoint =>
      cases endpoint with
      | startRun canvasId =>
          change (server.startRun draws canvasId request).2 = server
          unfold startRun
          cases decoded : request.decodeBody RunRequest.shape.decode with
          | error refusal => rfl
          | ok body =>
              rw [commission?_eq_some_iff.2 ⟨canvasId, body, asked, decoded, rfl⟩] at h
              contradiction
      | _ => rfl

/-- A request that starts a run is answered with its report, and the tracer records its events. -/
theorem handle_of_some (standard : server.engine.orchestrator = orchestrator)
    (h : commission? draws request = some commission) :
    (server.handle draws request).1 = .ok commission.report.encode ∧
    (server.handle draws request).2.tracer = server.tracer.recordAll commission.events ∧
    (server.handle draws request).2.engine.orchestrator = orchestrator := by
  obtain ⟨canvasId, ⟨graph, input⟩, asked, decoded, rfl⟩ := commission?_eq_some_iff.1 h
  have handled : server.handle draws request =
      (.ok (orchestrator.execute draws canvasId graph input).report.encode,
        ⟨(orchestrator.execute draws canvasId graph input).events.foldl Engine.publish
          server.engine⟩) := by
    simp only [handle, asked, answer, startRun, decoded, Engine.run, standard]
  rw [handled]
  exact ⟨rfl, tracer_publish _ _, (Engine.orchestrator_publishAll _ _).trans standard⟩

/-- After any requests the tracer has recorded the runs that they started, one after the other. -/
theorem handleAll_records (standard : server.engine.orchestrator = orchestrator)
    (requests : List (Draws × Request)) :
    (server.handleAll requests).2.tracer =
      server.tracer.recordAll (Commission.history (commissions requests)) ∧
    (server.handleAll requests).2.engine.orchestrator = orchestrator := by
  induction requests generalizing server with
  | nil => exact ⟨rfl, standard⟩
  | cons first rest ih =>
      obtain ⟨draws, request⟩ := first
      change ((server.handle draws request).2.handleAll rest).2.tracer = _ ∧
        ((server.handle draws request).2.handleAll rest).2.engine.orchestrator = _
      cases started : commission? draws request with
      | none =>
          rw [handle_of_none started, commissions_cons_of_none started]
          exact ih standard
      | some commission =>
          obtain ⟨-, recorded, kept⟩ := handle_of_some standard started
          obtain ⟨tracer, last⟩ := ih kept
          refine ⟨?_, last⟩
          rw [tracer, recorded, commissions_cons_of_some started, Commission.history,
            Commission.history, List.flatMap_cons]
          exact List.foldl_append.symm

/-- A server starts whatever the settings are, for every node type has an executor. -/
theorem exists_start (settings : Settings) :
    ∃ server, start settings = .ok server ∧ server.engine.orchestrator = orchestrator ∧
      server.tracer = .ofCapacity settings.tracerCapacity := by
  have complete : Registry.echoing.ensureComplete = .ok () := rfl
  unfold start Engine.build
  split
  · rw [complete]
    exact ⟨_, rfl, rfl, rfl⟩
  · exact ⟨_, rfl, rfl, rfl⟩

section Answers

/-- Whether the requests for an endpoint are answered with a response: those with its method and its
target, unless a name in the target is empty, and those that mean the same in other words. -/
structure Responds (server : Server) (endpoint : Endpoint) (response : Response) : Prop where
  written : endpoint.IsNamed → ∀ draws request, request.method = endpoint.method →
    request.target = endpoint.target → (server.handle draws request).1 = response
  reworded : ∀ draws request, Endpoint.ofRequest? request = some endpoint →
    (server.handle draws request).1 = response

/-- The answer about a node that has no output in a run. -/
def outputMissing (id : Uuid) (nodeId : String) : Response :=
  .notFound ("No output for step " ++ nodeId ++ " in run " ++ id.toString)

/-- What a server answers that remembers some runs, listed in the order of their execution, and no
others. Runs and steps are those of the reports, but for the times. There is nothing where a name is
empty or a text in the place of an id is none. -/
structure Remembers (server : Server) (runs : List Commission) : Prop where
  run : ∀ commission ∈ runs, ∃ run : Run, run.untimed = commission.report.run.untimed ∧
    server.Responds (.run commission.runId) (.ok (Run.shape.encode run))
  steps : ∀ commission ∈ runs, ∃ steps : List StepRecord,
    steps.map StepRecord.untimed = commission.report.steps.map StepRecord.untimed ∧
    server.Responds (.steps commission.runId) (.ok (.arr (steps.map StepRecord.shape.encode)))
  output : ∀ commission ∈ runs, ∀ step ∈ commission.report.steps,
    step.status = .completed → ∃ output, step.output = some output ∧
      server.Responds (.stepOutput commission.runId step.nodeId) (.ok (.ofRecord output))
  noOutput : ∀ commission ∈ runs, ∀ nodeId,
    (∀ step ∈ commission.report.steps, step.nodeId = nodeId → step.status ≠ .completed) →
      server.Responds (.stepOutput commission.runId nodeId)
        (outputMissing commission.runId nodeId)
  others : ∀ id, (∀ commission ∈ runs, commission.runId ≠ id) →
    server.Responds (.run id) (runMissing id) ∧ server.Responds (.steps id) (runMissing id) ∧
    ∀ nodeId, server.Responds (.stepOutput id nodeId) (outputMissing id nodeId)
  canvas : ∀ canvasId, ∃ listed : List Run,
    listed.map Run.untimed =
      (runs.reverse.filter (·.canvasId = canvasId)).map (·.report.run.untimed) ∧
    server.Responds (.canvasRuns canvasId) (.ok (.arr (listed.map Run.shape.encode)))
  unnamed : ∀ endpoint : Endpoint, ¬ endpoint.IsNamed → ∀ draws request,
    request.method = endpoint.method → request.target = endpoint.target →
      (server.handle draws request).1 = .noEndpoint
  unread : ∀ text asked, Uuid.ofString? text = none → ∀ draws request, request.method = .get →
    Endpoint.AsksAbout text request.target asked → (server.handle draws request).1.status = 404

theorem responds {endpoint : Endpoint} {response : Response}
    (h : ∀ draws request, (server.answer draws request endpoint).1 = response) :
    server.Responds endpoint response := by
  have reworded : ∀ draws request, Endpoint.ofRequest? request = some endpoint →
      (server.handle draws request).1 = response := by
    intro draws request asked
    rw [handle, asked]
    exact h draws request
  refine ⟨fun named draws request method target => reworded draws request ?_, reworded⟩
  rw [Endpoint.ofRequest?_of_target method target, if_pos named]

/-- There is nothing at a target with an empty name. -/
theorem handle_of_unnamed {endpoint : Endpoint} (unnamed : ¬ endpoint.IsNamed)
    (method : request.method = endpoint.method) (target : request.target = endpoint.target) :
    (server.handle draws request).1 = .noEndpoint := by
  rw [handle, Endpoint.ofRequest?_of_target method target, if_neg unnamed]

/-- Nothing is found where a run is asked about by a text that is no id. -/
theorem status_of_unread {text : String} {asked : Uuid → Endpoint}
    (unread : Uuid.ofString? text = none) (method : request.method = .get)
    (asks : Endpoint.AsksAbout text request.target asked) :
    (server.handle draws request).1.status = 404 := by
  rw [handle, Endpoint.ofRequest?_of_asksAbout method asks, unread]
  rfl

section Held

variable {id : Uuid} {held : Traced}

theorem responds_run (found : server.tracer.find? id = some held) :
    server.Responds (.run id) (.ok (Run.shape.encode held.run)) := by
  refine responds fun draws request => ?_
  change runResponse server.tracer id = _
  rw [runResponse, Tracer.run?, found]
  rfl

theorem responds_steps (found : server.tracer.find? id = some held) :
    server.Responds (.steps id) (.ok (.arr (held.steps.map StepRecord.shape.encode))) := by
  refine responds fun draws request => ?_
  change stepsResponse server.tracer server.tracer id = _
  rw [stepsResponse, Tracer.run?, Tracer.steps, found]
  rfl

theorem responds_output {nodeId : String} {output : Record}
    (found : server.tracer.find? id = some held)
    (answered : (held.steps.find? (·.nodeId = nodeId)).bind (·.output) = some output) :
    server.Responds (.stepOutput id nodeId) (.ok (.ofRecord output)) := by
  refine responds fun draws request => ?_
  change outputResponse server.tracer id nodeId = _
  have told : server.tracer.stepOutput? id nodeId = some output := by
    rw [Tracer.stepOutput?, Tracer.steps, found]
    exact answered
  rw [outputResponse, told]

theorem responds_outputMissing {nodeId : String} (found : server.tracer.find? id = some held)
    (unanswered : (held.steps.find? (·.nodeId = nodeId)).bind (·.output) = none) :
    server.Responds (.stepOutput id nodeId) (outputMissing id nodeId) := by
  refine responds fun draws request => ?_
  change outputResponse server.tracer id nodeId = _
  have told : server.tracer.stepOutput? id nodeId = none := by
    rw [Tracer.stepOutput?, Tracer.steps, found]
    exact unanswered
  rw [outputResponse, told]
  rfl

/-- Nothing is known of a run that is not held. -/
theorem responds_of_unheld (unheld : server.tracer.find? id = none) :
    server.Responds (.run id) (runMissing id) ∧ server.Responds (.steps id) (runMissing id) ∧
    ∀ nodeId, server.Responds (.stepOutput id nodeId) (outputMissing id nodeId) := by
  have unknown : server.tracer.run? id = none := by
    rw [Tracer.run?, unheld]
    rfl
  refine ⟨responds fun draws request => ?_, responds fun draws request => ?_,
    fun nodeId => responds fun draws request => ?_⟩
  · change runResponse server.tracer id = _
    rw [runResponse, unknown]
  · change stepsResponse server.tracer server.tracer id = _
    rw [stepsResponse, unknown]
  · change outputResponse server.tracer id nodeId = _
    rw [outputResponse, Tracer.stepOutput?, Tracer.steps, unheld]
    rfl

end Held

/-- A server that recorded some runs remembers the last of them. -/
theorem remembers_of_traced {runs : List Commission} {capacity : Nat}
    (distinct : (runs.map (·.runId)).Nodup)
    (steps : ∀ commission ∈ runs, commission.DistinctSteps)
    (ordered : runs.Pairwise fun a b => (a.draws.clock 0).notAfter (b.draws.clock 0))
    (recorded : server.tracer = Commission.traced runs capacity) :
    server.Remembers (Commission.remembered runs capacity) := by
  have holds {commission : Commission} (mem : commission ∈ Commission.remembered runs capacity) :
      server.tracer.find? commission.runId = some commission.report := by
    obtain ⟨held, found, -, same⟩ := Commission.find?_traced distinct mem
    rw [recorded, found,
      same (steps commission ((Commission.remembered_sublist runs capacity).subset mem))]
  refine ⟨?_, ?_, ?_, ?_, ?_, ?_, ?_, ?_⟩
  · exact fun commission mem => ⟨_, rfl, responds_run (holds mem)⟩
  · exact fun commission mem => ⟨_, rfl, responds_steps (holds mem)⟩
  · intro commission mem step hstep completed
    obtain ⟨output, houtput, answered⟩ := commission.exists_output_of_completed hstep completed
    exact ⟨output, houtput, responds_output (holds mem) answered⟩
  · intro commission mem nodeId incomplete
    exact responds_outputMissing (holds mem) (commission.output_eq_none incomplete)
  · intro id absent
    refine responds_of_unheld ?_
    rw [recorded]
    exact Commission.find?_traced_eq_none distinct absent
  · intro canvasId
    refine ⟨_, ?_, responds fun draws request => rfl⟩
    rw [recorded, Commission.runsOfCanvas_traced distinct ordered, List.map_map]
    rfl
  · exact fun endpoint unnamed draws request => handle_of_unnamed unnamed
  · exact fun text asked unread draws request => status_of_unread unread

end Answers

end Canvas.Service.Server
