import BuildPlan.ConfigError

/-!
# Failures

What a command was doing when it failed, and why.  A failure is told as a chain of causes, the outermost
first: on one line, or as a report with the causes below the failure.
-/

namespace BuildPlan.CommandLine

/-- Why a command fails. -/
inductive Failure where
  | configFile (path : String) (cause : ReadError)
  | credentials (path : String) (cause : ConfigError)
  | document (path : String) (cause : ConfigError)
  | registration (cause : CompileError)
  | compilation (path : String) (cause : CompileError)
  deriving DecidableEq, Repr

namespace Failure

/-- What failed. -/
def headline : Failure → String
  | .configFile path _ => "Failed to read config file: " ++ path
  | .credentials path _ => "Failed to read credentials: " ++ path
  | .document path _ => "Failed to parse master config: " ++ path
  | .registration cause => cause.message
  | .compilation path _ => "Failed to compile master config: " ++ path

/-- Why it failed, from the nearest cause to the farthest. -/
def causes : Failure → List String
  | .configFile _ cause => [cause.message]
  | .credentials _ cause => cause.causes
  | .document _ cause => cause.causes
  | .registration _ => []
  | .compilation _ cause => [cause.message]

/-- The failure and its causes on one line. -/
def summary (f : Failure) : String :=
  String.intercalate ": " (f.headline :: f.causes)

/-- A text of several lines behind a margin; the lines after the first have a margin of their own. -/
def hang (first other text : String) : String :=
  first ++ String.intercalate ("\n" ++ other)
    ((text.toList.splitOnP (· == '\n')).map String.ofList)

/-- The causes of a report: a single one is indented, several are numbered. -/
def causeLines : List String → List String
  | [cause] => [hang "    " "    " cause]
  | causes =>
    causes.mapIdx fun i cause => hang ("    " ++ toString i ++ ": ") "       " cause

/-- The failure with its causes below. -/
def report (f : Failure) : String :=
  "Error: " ++ f.headline ++
    (if f.causes.isEmpty then "\n"
    else "\n\nCaused by:\n" ++ String.intercalate "\n" (causeLines f.causes) ++ "\n")

end Failure

end BuildPlan.CommandLine
