import Canvas.CommandLine.Console
import Canvas.Proofs.Run.Echo

/-!
# What exit codes tell

The commands that validate, plan and run a canvas file come to their exit codes in different ways:
by the findings, by whether there is a plan, and by the error that a run leaves. They agree all the
same. Validating and planning succeed on exactly the files that hold a valid canvas. Running such a
file succeeds unless the input is no JSON object or a node has an `emit` that is none.
-/

namespace Canvas.CommandLine

open Executor (CanEcho)

/-- Whether the content of a file is the text of a canvas. -/
def Holds (content : Except FileError String) (graph : Graph) : Prop :=
  ∃ text, content = .ok text ∧ Json.decodeText Graph.shape.decode text = .ok graph

/-- Whether the input of a run, if there is one, is the text of an object. -/
def IsObject (input : Option String) : Prop :=
  ∀ text, input = some text → ∃ members, Json.parse text = .ok (.obj members)

section Parts

variable {environment : Environment} {built : Engine} {path : String}
variable {content : Except FileError String} {input : Option String} {graph : Graph}
variable {p : Graph → Prop}

@[simp] theorem Outcome.code_ended (code : Nat) (lines : List String) :
    (ended code lines).code = code := rfl

@[simp] theorem Outcome.code_failed (lines : List String) (complaint : Complaint) :
    (failed lines complaint).code = 1 := rfl

theorem load_eq_ok_iff : load path content = .ok graph ↔ Holds content graph := by
  unfold load Holds
  cases content with
  | error error => simp
  | ok text =>
      cases decoded : Json.decodeText Graph.shape.decode text <;>
        simp [Except.mapError, decoded]

theorem exists_holds_iff (loaded : load path content = .ok graph) :
    (∃ graph, Holds content graph ∧ p graph) ↔ p graph := by
  have holds (other : Graph) : Holds content other ↔ other = graph := by
    rw [← load_eq_ok_iff, loaded, Except.ok.injEq, eq_comm]
  simp only [holds, exists_eq_left]

theorem not_exists_holds {complaint : Complaint} (refused : load path content = .error complaint) :
    ¬ ∃ graph, Holds content graph ∧ p graph := by
  rintro ⟨graph, holds, -⟩
  rw [load_eq_ok_iff.2 holds] at refused
  contradiction

theorem exists_parseInput_iff : (∃ record, parseInput input = .ok record) ↔ IsObject input := by
  unfold parseInput IsObject
  cases input with
  | none => simp
  | some text =>
      cases parsed : Json.parse text with
      | error error => simp [parsed]
      | ok value => cases value <;> simp [parsed]

/-- An engine of the command line echoes for every type and resolves in the usual way. -/
theorem orchestrator_of_engine (h : engine environment = .ok built) :
    built.orchestrator = ⟨.echoing, .standard⟩ := by
  have complete : Registry.echoing.ensureComplete = .ok () := by decide
  unfold engine Engine.build at h
  rw [complete] at h
  split at h
  all_goals
    obtain rfl := Except.ok.inj h
    rfl

theorem validated_code_iff (path : String) (content : Except FileError String)
    (h : engine environment = .ok built) :
    (validated environment path content).code = 0 ↔
      ∃ graph, Holds content graph ∧ graph.validate.valid = true := by
  unfold validated
  cases loaded : load path content with
  | error complaint => exact iff_of_false (by simp) (not_exists_holds loaded)
  | ok graph =>
      rw [exists_holds_iff loaded, h]
      cases valid : graph.validate.valid <;> simp [valid]

theorem planned_code_iff (path : String) (content : Except FileError String)
    (h : engine environment = .ok built) :
    (planned environment path content).code = 0 ↔
      ∃ graph, Holds content graph ∧ graph.validate.valid = true := by
  unfold planned
  cases loaded : load path content with
  | error complaint => exact iff_of_false (by simp) (not_exists_holds loaded)
  | ok graph =>
      rw [exists_holds_iff loaded, h]
      cases compiled : graph.plan with
      | ok plan => exact iff_of_true (by simp [compiled]) (Graph.valid_of_plan compiled)
      | error error =>
          exact iff_of_false (by simp [compiled]) (Graph.not_valid_of_planning_error compiled)

theorem executed_code_iff (draws : Draws) (options : RunOptions)
    (content : Except FileError String) (h : engine environment = .ok built) :
    (executed environment draws options content).code = 0 ↔
      ∃ graph, Holds content graph ∧ graph.validate.valid = true ∧ IsObject options.input ∧
        ∀ node ∈ graph.nodes, CanEcho node.config := by
  unfold executed
  cases loaded : load options.file content with
  | error complaint => exact iff_of_false (by simp) (not_exists_holds loaded)
  | ok graph =>
      rw [exists_holds_iff loaded, ← exists_parseInput_iff]
      cases parsed : parseInput options.input with
      | error complaint => exact iff_of_false (by simp) (by simp)
      | ok input =>
          simp only [h, Engine.runWithSink, orchestrator_of_engine h]
          generalize ran : Orchestrator.execute ⟨.echoing, .standard⟩ draws
            (options.canvasId.getD ((fileStem? options.file).getD "canvas")) graph input = execution
          have succeeds := Orchestrator.error_eq_none_iff_canEcho ran
          cases left : execution.report.run.error with
          | none =>
              obtain ⟨valid, able⟩ := succeeds.1 left
              exact iff_of_true (by simp) ⟨valid, ⟨input, rfl⟩, able⟩
          | some error =>
              refine iff_of_false (by simp) fun ⟨valid, _, able⟩ => ?_
              rw [succeeds.2 ⟨valid, able⟩] at left
              contradiction

end Parts

/-- Validating a file succeeds exactly if planning it does, which is if it holds a valid canvas.
Running it succeeds exactly if moreover the input is an object and every node can echo. -/
theorem exit_codes_agree (files : FileAccess Id) {environment : Environment} (draws : Draws)
    {built : Engine} (h : engine environment = .ok built) {options : RunOptions}
    {validating planning running : List String}
    (validates : Command.ofArguments? validating = some (.validate options.file))
    (plans : Command.ofArguments? planning = some (.plan options.file))
    (runs : Command.ofArguments? running = some (.run options)) :
    ((perform files environment draws validating).code = 0 ↔
      (perform files environment draws planning).code = 0) ∧
    ((perform files environment draws validating).code = 0 ↔
      ∃ graph, Holds (files.read options.file) graph ∧ graph.validate.valid = true) ∧
    ((perform files environment draws running).code = 0 ↔
      ∃ graph, Holds (files.read options.file) graph ∧ graph.validate.valid = true ∧
        IsObject options.input ∧ ∀ node ∈ graph.nodes, CanEcho node.config) := by
  simp only [perform, validates, plans, runs]
  have validated := validated_code_iff options.file (files.read options.file) h
  have planned := planned_code_iff options.file (files.read options.file) h
  have executed := executed_code_iff draws options (files.read options.file) h
  exact ⟨validated.trans planned.symm, validated, executed⟩

/-- What is written to a tree lasts if it can be written. -/
theorem FileTree.run_write (tree : FileTree) (path content : String) :
    (access.write path content).run tree =
      pure ((tree.write path content).map fun _ => (),
        (tree.write path content).toOption.getD tree) := by
  cases written : tree.write path content with
  | error error => simp [access, written, Except.map, Except.toOption]
  | ok later => simp [access, written, Except.map, Except.toOption]

/-- A command has the same outcome with a tree of files as with the files that the tree holds at
first, and unless it creates an example it leaves the tree as it is. So exit codes agree within a
tree, too, whichever command comes first. -/
theorem perform_access (tree : FileTree) (environment : Environment) (draws : Draws)
    (arguments : List String) :
    let performed := (perform FileTree.access environment draws arguments).run tree
    performed.1 = perform tree.reading environment draws arguments ∧
      ((∀ path, Command.ofArguments? arguments ≠ some (.init path)) → performed.2 = tree) := by
  intro performed
  simp only [performed, perform]
  cases understood : Command.ofArguments? arguments with
  | none => exact ⟨rfl, fun _ => rfl⟩
  | some command =>
      cases command with
      | init path =>
          refine ⟨?_, fun other => absurd rfl (other path)⟩
          simp only [Command.perform, StateT.run_map, FileTree.run_write]
          rfl
      | run options => exact ⟨rfl, fun _ => rfl⟩
      | validate path => exact ⟨rfl, fun _ => rfl⟩
      | plan path => exact ⟨rfl, fun _ => rfl⟩
      | types => exact ⟨rfl, fun _ => rfl⟩
      | help => exact ⟨rfl, fun _ => rfl⟩

/-- The question of this canvas has an `emit` that is a number. The file can be validated and
planned, but a run of it without an input fails. -/
theorem exit_codes_of_refused_question :
    let text := "\x7b\"nodes\":[\x7b\"id\":\"question\",\"type\":\"query\",\"config\":" ++
      "\x7b\"emit\":1\x7d\x7d,\x7b\"id\":\"answer\",\"type\":\"generate\"\x7d]," ++
      "\"edges\":[\x7b\"id\":\"e\",\"source\":\"question\",\"target\":\"answer\"\x7d]\x7d"
    let files := FileTree.reading ⟨[(["chat.json"], text)]⟩
    let code (arguments : List String) : Nat := (perform files (fun _ => none)
      ⟨.nil, fun n => ⟨n⟩, fun _ => default⟩ arguments).code
    (∃ built, engine (fun _ => none) = .ok built) ∧
      Command.ofArguments? ["validate", "chat.json"] = some (.validate "chat.json") ∧
      Command.ofArguments? ["plan", "chat.json"] = some (.plan "chat.json") ∧
      Command.ofArguments? ["run", "-fchat.json"] = some (.run ⟨"chat.json", none, none, false⟩) ∧
      code ["validate", "chat.json"] = 0 ∧ code ["plan", "chat.json"] = 0 ∧
      (∃ graph, Holds (files.read "chat.json") graph ∧ graph.validate.valid = true) ∧
      code ["run", "-fchat.json"] ≠ 0 ∧
      ¬ ∃ graph, Holds (files.read "chat.json") graph ∧ graph.validate.valid = true ∧
        IsObject none ∧ ∀ node ∈ graph.nodes, CanEcho node.config := by
  intro text files code
  obtain ⟨built, h⟩ : ∃ built, engine (fun _ => none) = .ok built := ⟨_, rfl⟩
  have validates : Command.ofArguments? ["validate", "chat.json"] =
      some (.validate "chat.json") := by decide
  have plans : Command.ofArguments? ["plan", "chat.json"] = some (.plan "chat.json") := by decide
  have runs : Command.ofArguments? ["run", "-fchat.json"] =
      some (.run ⟨"chat.json", none, none, false⟩) := by decide
  have valid : code ["validate", "chat.json"] = 0 := by decide +kernel
  have refused : code ["run", "-fchat.json"] ≠ 0 := by decide +kernel
  obtain ⟨agree, validated, executed⟩ := exit_codes_agree files
    ⟨.nil, fun n => ⟨n⟩, fun _ => default⟩ h validates plans runs
  exact ⟨⟨built, h⟩, validates, plans, runs, valid, agree.1 valid, validated.1 valid, refused,
    fun able => refused (executed.2 able)⟩

end Canvas.CommandLine
