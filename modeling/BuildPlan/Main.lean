import BuildPlan.CommandLine

/-!
# The program

Runs the command line on the files of the system.
-/

namespace BuildPlan

/-- How to call the program. -/
def usage : String :=
  "Usage: buildmaster [--httpauth FILE] [--json-logs] (validate | compile [--pretty]) [PATH]\n"

/-- The reason why a file cannot be read. -/
def readError : IO.Error → ReadError
  | .noFileOrDirectory _ _ _ => .notFound
  | .inappropriateType _ 21 _ => .isDirectory
  | .inappropriateType _ _ _ => .notDirectory
  | .permissionDenied _ _ _ => .denied
  | e => .other (toString e)

/-- Reads a file as text. -/
def readText (path : String) : IO (Except ReadError String) := do
  try
    let bytes ← IO.FS.readBinFile path
    match String.fromUTF8? bytes with
    | some text => return .ok text
    | none => return .error .invalidUtf8
  catch e => return .error (readError e)

/-- The contents of the files that a command line looks at. -/
def readFiles (home fallback : Option String) (args : List String) : IO CommandLine.Files := do
  match CommandLine.parse? fallback args with
  | none => return fun _ => .error .notFound
  | some c =>
    let config ← readText c.path
    let credentials ←
      match c.httpauthFile? home with
      | some path => readText path
      | none => pure (.error .notFound)
    return fun path => if path = c.path then config else credentials

end BuildPlan

/-- Runs the command line. -/
def main (args : List String) : IO UInt32 := do
  let home ← IO.getEnv "HOME"
  let fallback ← IO.getEnv "BUILDMASTER_HTTPAUTH"
  let files ← BuildPlan.readFiles home fallback args
  let answer := BuildPlan.CommandLine.run files home fallback args
  IO.print answer.output
  if answer.exitCode = 2 then
    IO.eprint BuildPlan.usage
  if let some report := answer.report then
    IO.eprint report
  return UInt32.ofNat answer.exitCode
