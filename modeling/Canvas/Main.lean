import Canvas.CommandLine.Console

/-!
# The command line

Performs what the arguments ask for, with the files, the environment and the randomness at hand. No
command prints times, so the clock of a run stands still.
-/

namespace Canvas.CommandLine

/-- The reason that the system gives. -/
def FileError.ofSystem : IO.Error → FileError
  | .noFileOrDirectory .. => .notFound
  | .inappropriateType _ code _ => if code = 21 then .isDirectory else .notDirectory
  | error => .other (toString error)

/-- Access to the files of the system. -/
def systemFiles : FileAccess IO where
  read path := do
    try
      let bytes ← IO.FS.readBinFile path
      return match String.fromUTF8? bytes with
        | some content => .ok content
        | none => .error .notText
    catch error => return .error (.ofSystem error)
  write path content := do
    try
      IO.FS.writeFile path content
      return .ok ()
    catch error => return .error (.ofSystem error)

/-- The variables of the system's environment on which settings depend. -/
def systemEnvironment : IO Environment := do
  let values ← Settings.variableNames.mapM fun name => return (name, ← IO.getEnv name)
  return fun name => (values.find? (·.1 = name)).bind (·.2)

/-- Ids that follow a random number. -/
def randomDraws : IO Draws := do
  let bytes ← IO.getRandomBytes 16
  let seed := bytes.foldl (fun n byte => n * 256 + byte.toNat) 0
  let id (i : Nat) : Uuid := .ofRandom (BitVec.ofNat 128 (seed + i))
  return ⟨id 0, fun i => id (i + 1), fun _ => default⟩

end Canvas.CommandLine

open Canvas.CommandLine in
/-- Perform a command line. -/
def main (arguments : List String) : IO UInt32 := do
  let outcome ← perform systemFiles (← systemEnvironment) (← randomDraws) arguments
  (← IO.getStdout).putStr outcome.output
  (← IO.getStderr).putStr outcome.errors
  return outcome.code.toUInt32
