/-!
# Arguments

A command line names a command and then, in any order, its options and operands. A long option is
written `--name value` or `--name=value`, a short one `-l value`, `-lvalue` or `-l=value`; short
options without values may share a dash. Behind `--` there are only operands. An option stands at
most once, and a separate value starts with a dash only if it is nothing else.
-/

namespace Canvas.CommandLine

/-- What a run is asked for: the file of the canvas, the input, and the name of the canvas. -/
structure RunOptions where
  file : String
  input : Option String
  canvasId : Option String
  verbose : Bool
  deriving DecidableEq

/-- What a command line asks for. -/
inductive Command where
  | run (options : RunOptions)
  | validate (file : String)
  | plan (file : String)
  | types
  | init (file : String)
  | help
  deriving DecidableEq

/-- An option that a command understands. -/
structure Switch where
  name : String
  letter : Option Char
  takesValue : Bool

/-- The option that asks for help; every command understands it. -/
def Switch.help : Switch := ⟨"help", some 'h', false⟩

/-- A part of a command line behind the command. -/
inductive Part where
  | switch (name : String) (value : String)
  | operand (text : String)
  deriving DecidableEq

/-- Whether an argument is an option rather than a value. -/
def isDashed (argument : String) : Bool := argument.toList.head? = some '-' && argument ≠ "-"

/-- The part that an option and its value make; the value is none if there is no equals sign. -/
def Switch.attached? (switch : Switch) (value : Option String) : Option Part :=
  match switch.takesValue, value with
  | true, some value => some (.switch switch.name value)
  | false, none => some (.switch switch.name "")
  | _, _ => none

/-- The short options behind one dash, and the last one if its value is to follow. -/
def scanLetters (switches : List Switch) : List Char → Option (List Part × Option Switch)
  | [] => some ([], none)
  | letter :: rest => do
    let switch ← switches.find? (·.letter = some letter)
    if switch.takesValue then
      match rest with
      | [] => return ([], some switch)
      | '=' :: value => return ([.switch switch.name (String.ofList value)], none)
      | value => return ([.switch switch.name (String.ofList value)], none)
    else
      let (parts, pending) ← scanLetters switches rest
      return (.switch switch.name "" :: parts, pending)

/-- A long option behind its dashes: the part that it makes, or the option if its value is to
follow. -/
def scanName (switches : List Switch) (text : List Char) : Option (List Part × Option Switch) := do
  let (name, rest) := text.span (· ≠ '=')
  let switch ← switches.find? (·.name = String.ofList name)
  match switch.takesValue, rest with
  | true, [] => return ([], some switch)
  | _, [] => return ([← switch.attached? none], none)
  | _, _ :: value => return ([← switch.attached? (some (String.ofList value))], none)

/-- The parts of one argument that is no value, and the option whose value is to follow. -/
def scanArgument (switches : List Switch) (argument : String) :
    Option (List Part × Option Switch) :=
  match argument.toList with
  | '-' :: '-' :: text => scanName switches text
  | '-' :: letter :: letters => scanLetters switches (letter :: letters)
  | _ => some ([.operand argument], none)

/-- The parts of a command line, or none if it is not understood. `pending` is an option whose value
is to follow. -/
def scan (switches : List Switch) (pending : Option Switch) : List String → Option (List Part)
  | [] => if pending.isNone then some [] else none
  | argument :: rest =>
    match pending with
    | some switch =>
      if isDashed argument then none
      else (scan switches none rest).map (.switch switch.name argument :: ·)
    | none =>
      if argument = "--" then some (rest.map .operand)
      else do
        let (parts, pending) ← scanArgument switches argument
        let others ← scan switches pending rest
        return parts ++ others

/-- The names of the options among parts. -/
def switchNames (parts : List Part) : List String :=
  parts.filterMap fun
    | .switch name _ => some name
    | .operand _ => none

/-- The operands among parts. -/
def operands (parts : List Part) : List String :=
  parts.filterMap fun
    | .switch .. => none
    | .operand text => some text

/-- The value of an option among parts. -/
def value? (parts : List Part) (name : String) : Option String :=
  parts.findSome? fun
    | .switch other value => if other = name then some value else none
    | .operand _ => none

/-- A path must not be empty. -/
def filled? (path : String) : Option String := if path.isEmpty then none else some path

/-- Understand the arguments of a command: `build` makes it from their parts. -/
def understand (switches : List Switch) (build : List Part → Option Command)
    (arguments : List String) : Option Command := do
  let parts ← scan (switches ++ [Switch.help]) none arguments
  let names := switchNames parts
  if "help" ∈ names then return .help
  if names.Nodup then build parts else none

/-- The single operand among parts, which names a file. -/
def onlyFile? (parts : List Part) : Option String :=
  match operands parts with
  | [path] => filled? path
  | _ => none

/-- Parts without operands. -/
def withoutOperands (parts : List Part) : Option (List Part) :=
  if (operands parts).isEmpty then some parts else none

/-- The options of a run. -/
def runOptions? (parts : List Part) : Option RunOptions := do
  let parts ← withoutOperands parts
  let file ← (value? parts "file").bind filled?
  return ⟨file, value? parts "input", value? parts "canvas-id", (value? parts "verbose").isSome⟩

/-- The file that is written if no other is named. -/
def defaultFile : String := "canvas.json"

/-- The file in which an example is created. -/
def outputFile? (parts : List Part) : Option String := do
  let parts ← withoutOperands parts
  filled? ((value? parts "output").getD defaultFile)

/-- The names of all commands. -/
def Command.names : List String := ["run", "validate", "plan", "types", "init", "help"]

/-- What a command line asks for, or none if it is not understood. -/
def Command.ofArguments? : List String → Option Command
  | "run" :: arguments =>
    understand [⟨"file", some 'f', true⟩, ⟨"input", some 'i', true⟩, ⟨"canvas-id", none, true⟩,
      ⟨"verbose", some 'v', false⟩] (fun parts => .run <$> runOptions? parts) arguments
  | "validate" :: arguments =>
    understand [] (fun parts => .validate <$> onlyFile? parts) arguments
  | "plan" :: arguments => understand [] (fun parts => .plan <$> onlyFile? parts) arguments
  | "types" :: arguments =>
    understand [] (fun parts => (fun _ => .types) <$> withoutOperands parts) arguments
  | "init" :: arguments =>
    understand [⟨"output", some 'o', true⟩] (fun parts => .init <$> outputFile? parts) arguments
  | ["-h"] | ["--help"] | ["help"] => some .help
  | ["help", name] => if name ∈ Command.names then some .help else none
  | _ => none

end Canvas.CommandLine
