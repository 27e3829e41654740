import Canvas.CommandLine.Arguments
import Canvas.CommandLine.Files
import Canvas.Engine
import Canvas.Json.Printer
import Canvas.Stream.Channel

/-!
# The console

What each command prints, and whether it succeeds. A command that reads a canvas is a function of
the content of its file; `Command.perform` obtains the content and applies the function.
-/

namespace Canvas.CommandLine

/-- Why a command failed, and what caused it. -/
structure Complaint where
  text : String
  cause : Option String

namespace Complaint

/-- The lines of a text, all indented. -/
def indented (text : String) : String := "    " ++ "\n    ".intercalate (text.splitOn "\n")

/-- A complaint as it is printed. -/
def print (complaint : Complaint) : String :=
  match complaint.cause with
  | none => "Error: " ++ complaint.text ++ "\n"
  | some cause => "Error: " ++ complaint.text ++ "\n\nCaused by:\n" ++ indented cause ++ "\n"

end Complaint

/-- What a command prints on its output and error streams, and its exit code. -/
structure Outcome where
  code : Nat
  output : String
  errors : String
  deriving DecidableEq

namespace Outcome

/-- Lines as they are printed. -/
def print (lines : List String) : String := String.join (lines.map (· ++ "\n"))

/-- A command that printed lines and ended with a code. -/
def ended (code : Nat) (lines : List String) : Outcome := ⟨code, print lines, ""⟩

/-- A command that failed after it printed lines. -/
def failed (lines : List String) (complaint : Complaint) : Outcome :=
  ⟨1, print lines, complaint.print⟩

end Outcome

/-- The environment variables that are set. -/
abbrev Environment := String → Option String

/-- The canvas in a file. -/
def load (path : String) (content : Except FileError String) : Except Complaint Graph :=
  match content with
  | .error error => .error ⟨"reading " ++ path, some error.message⟩
  | .ok text =>
    (Json.decodeText Graph.shape.decode text).mapError fun error =>
      ⟨"parsing " ++ path, some error.message⟩

/-- An engine with an executor for every node type and the settings of the environment. -/
def engine (environment : Environment) : Except Complaint Engine :=
  (Engine.build Registry.echoing Resolver.standard (Settings.ofEnvironment environment)).mapError
    fun error => ⟨error.message, none⟩

/-- The input of a run; without one it is empty. -/
def parseInput (text : Option String) : Except Complaint Record :=
  match text with
  | none => .ok Dict.empty
  | some text =>
    match Json.parse text with
    | .error error => .error ⟨error.message, none⟩
    | .ok (.obj members) => .ok (Dict.ofList members)
    | .ok _ => .error ⟨"Input must be a JSON object", none⟩

/-- The findings about a canvas, line by line. -/
def findingLines (findings : Findings) : List String :=
  (if findings.valid then "✅ Canvas is valid" else "❌ Canvas is invalid")
    :: findings.errors.map ("   error   " ++ ·.text)
    ++ findings.warnings.map ("   warning " ++ ·.text)

/-- Validate a canvas. -/
def validated (environment : Environment) (path : String) (content : Except FileError String) :
    Outcome :=
  match load path content, engine environment with
  | .error complaint, _ | .ok _, .error complaint => .failed [] complaint
  | .ok graph, .ok _ =>
    let findings := graph.validate
    .ended (if findings.valid then 0 else 1) (findingLines findings)

/-- Plan a canvas. -/
def planned (environment : Environment) (path : String) (content : Except FileError String) :
    Outcome :=
  match load path content, engine environment with
  | .error complaint, _ | .ok _, .error complaint => .failed [] complaint
  | .ok graph, .ok _ =>
    match graph.plan with
    | .error error => .failed [] ⟨error.message, none⟩
    | .ok plan => .ended 0 [plan.encode.pretty]

/-- What is printed when an event is emitted. -/
def eventLine? (event : Event) : Option String :=
  match event.payload with
  | .runStarted _ _ totalSteps => some s!"▶️  Run started ({totalSteps} steps)"
  | .stepStarted step _ => some s!"  ⚡ [{step.index}] {step.nodeId} ({step.nodeType})"
  | .stepCompleted step _ latencyMs => some s!"  ✅ {step.nodeId} completed in {latencyMs}ms"
  | .stepFailed step error _ => some s!"  ❌ {step.nodeId} failed: {error}"
  | .runCompleted _ totalLatencyMs => some s!"✨ Run completed in {totalLatencyMs}ms"
  | .runFailed error => some s!"💥 Run failed: {error}"
  | .stepProgress .. => none

/-- The name of a status in a summary. -/
def statusTitle : Status → String
  | .pending => "Pending"
  | .running => "Running"
  | .completed => "Completed"
  | .failed => "Failed"

/-- The summary of a run, and its output if there is one. -/
def reportLines (report : RunReport) : List String :=
  ["", "📊 Run Summary:", s!"   Run ID: {report.run.id}",
    s!"   Status: {statusTitle report.run.status}", s!"   Steps: {report.steps.length}"]
    ++ match report.run.output with
      | some output => ["", "📤 Output:", (Json.ofRecord output).pretty]
      | none => []

/-- What is printed before the canvas of a run is loaded. -/
def loadingLine (path : String) : String := "🚀 Loading canvas from: " ++ path

/-- What is printed before a run is executed. -/
def canvasLines (canvasId : String) (graph : Graph) : List String :=
  [s!"📋 Canvas: {canvasId}", s!"   Nodes: {graph.nodes.length}",
    s!"   Edges: {graph.edges.length}", ""]

/-- Execute a canvas. -/
def executed (environment : Environment) (draws : Draws) (options : RunOptions)
    (content : Except FileError String) : Outcome :=
  let loading := loadingLine options.file
  match load options.file content, parseInput options.input with
  | .error complaint, _ | .ok _, .error complaint => .failed [loading] complaint
  | .ok graph, .ok input =>
    let canvasId := options.canvasId.getD ((fileStem? options.file).getD "canvas")
    let lines := loading :: canvasLines canvasId graph
    match engine environment with
    | .error complaint => .failed lines complaint
    | .ok engine =>
      let (execution, _, printer) :=
        engine.runWithSink Channel.send .empty draws canvasId graph input
      let lines := lines ++ graph.validate.warnings.map ("⚠️  " ++ ·.text)
        ++ printer.waiting.filterMap eventLine? ++ reportLines execution.report
      match execution.report.run.error with
      | some error => .failed lines ⟨"run failed: " ++ error, none⟩
      | none => .ended 0 lines

/-- A node type and the types that it may feed. -/
def typeLines (type : NodeType) : List String :=
  let roles := (if type.isEntry then ["entry"] else [])
    ++ (if type.isTerminal then ["terminal"] else [])
  let role := if roles.isEmpty then "" else " (" ++ ", ".intercalate roles ++ ")"
  let targets := type.targets.map NodeType.name
  ["  • " ++ type.name ++ role,
    "    → " ++ (if targets.isEmpty then "-" else ", ".intercalate targets)]

/-- List the node types. -/
def typesListed : Outcome :=
  .ended 0 (["📦 Node Types:", ""] ++ NodeType.all.flatMap typeLines)

/-- A canvas that retrieves documents for a question. -/
def exampleGraph : Graph :=
  let emitting (key : String) (items : List Json) : Json := .obj [(key, .arr items)]
  (Graph.empty
    |>.addNode ((Node.ofId "query" .query).withLabel "Question")
    |>.addNode (((Node.ofId "embed" .embed).withLabel "Embed").withConfig "emit"
      (emitting "embedding" [.float 0.12, .float 0.48, .float 0.33]))
    |>.addNode (((Node.ofId "retrieve" .retrieve).withLabel "Retrieve").withConfig "emit"
      (emitting "documents" [.str "doc-1", .str "doc-2"]))
    |>.addNode ((Node.ofId "generate" .generate).withLabel "Answer")
    |>.connect "query" "embed"
    |>.connect "embed" "retrieve"
    |>.connect "retrieve" "generate")

/-- Tell whether an example was written. -/
def created (path : String) (result : Except FileError Unit) : Outcome :=
  match result with
  | .error error => .failed [] ⟨error.message, none⟩
  | .ok () =>
    .ended 0 [s!"✨ Created example canvas: {path}", "", "Run it with:",
      s!"  canvas run --file {path} --input '\x7b\"query\": \"what is a borrow checker?\"\x7d'"]

/-- How the command line is used. -/
def usage : List String :=
  ["Usage: canvas COMMAND", "", "Commands:",
    "  run -f FILE [-i INPUT] [--canvas-id ID] [-v]  Execute a canvas file",
    "  validate FILE                                 Validate a canvas file",
    "  plan FILE                                     Print the execution plan of a canvas file",
    "  types                                         List node types and their connections",
    "  init [-o FILE]                                Create an example canvas"]

/-- Perform a command. -/
def Command.perform {m : Type → Type} [Monad m] (files : FileAccess m) (environment : Environment)
    (draws : Draws) : Command → m Outcome
  | .run options => executed environment draws options <$> files.read options.file
  | .validate path => validated environment path <$> files.read path
  | .plan path => planned environment path <$> files.read path
  | .types => return typesListed
  | .init path => created path <$> files.write path (Graph.shape.encode exampleGraph).pretty
  | .help => return .ended 0 usage

/-- The outcome of a command line that is not understood. -/
def misused : Outcome := ⟨2, "", Outcome.print usage⟩

/-- Perform what a command line asks for. -/
def perform {m : Type → Type} [Monad m] (files : FileAccess m) (environment : Environment)
    (draws : Draws) (arguments : List String) : m Outcome :=
  match Command.ofArguments? arguments with
  | some command => command.perform files environment draws
  | none => return misused

end Canvas.CommandLine
