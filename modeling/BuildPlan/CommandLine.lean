import BuildPlan.CommandLine.Arguments
import BuildPlan.CommandLine.Failure
import BuildPlan.Configuration
import BuildPlan.HttpAuth
import BuildPlan.Json.Printer
import BuildPlan.Plan.Json

/-!
# Commands

`validate` compiles a configuration file and says how much it comes to; `compile` prints the master plan
as JSON.  Files are read through a function, so that what a command answers is a function of the command
line and of the contents of files.
-/

namespace BuildPlan.CommandLine

/-- The contents of files by path. -/
abbrev Files := String → Except ReadError String

/-- What a command answers. -/
structure Answer where
  exitCode : Nat
  output : String := ""
  /-- The report of a failure. -/
  report : Option String := none
  deriving DecidableEq, Repr

/-- The credentials file of a home directory. -/
def standardHttpauth (home : String) : String :=
  (if home.toList.getLast? = some '/' then home else home ++ "/") ++ ".buildout/.httpauth"

/-- The credentials file that a command looks at: the one it names, or else the one of the home
directory.  An empty home directory is none. -/
def Command.httpauthFile? (c : Command) (home : Option String) : Option String :=
  c.httpauth <|> (home.filter (!·.isEmpty)).map standardHttpauth

/-- Reads the credentials of a command; without a file to look at there are none. -/
def readCredentials (files : Files) : Option String → Except Failure HttpAuth
  | some path => (HttpAuth.ofFile (files path)).mapError (.credentials path)
  | none => .ok {}

/-- Compiles the configuration of a document. -/
def compileConfiguration (path : String) (c : Configuration) : Except Failure MasterPlan := do
  let registry ← (Registry.ofConfigs c.projects).mapError .registration
  (c.compiler.compileAll registry).result.mapError (.compilation path)

/-- Reads and compiles a configuration file. -/
def load (files : Files) (path : String) (httpauth : Option String) : Except Failure MasterPlan := do
  let text ← (files path).mapError (.configFile path)
  let credentials ← readCredentials files httpauth
  let configuration ←
    (Configuration.parse credentials.credentialsFor text).mapError (.document path)
  compileConfiguration path configuration

/-- How much a master plan comes to. -/
def tally (m : MasterPlan) : String :=
  "Configuration is valid: " ++ toString m.schedulers.length ++ " schedulers, " ++
    toString m.builders.length ++ " builders, " ++ toString m.notifiers.length ++ " notifiers\n"

/-- The answer of a command to how its configuration file loads. -/
def answer (action : Action) (loaded : Except Failure MasterPlan) : Answer :=
  match action, loaded with
  | .validate, .ok m => { exitCode := 0, output := tally m }
  | .validate, .error f =>
    { exitCode := 1, output := "Configuration error: " ++ f.summary ++ "\n" }
  | .compile pretty, .ok m =>
    { exitCode := 0, output := (if pretty then m.toJson.pretty else m.toJson.compact) ++ "\n" }
  | .compile _, .error f => { exitCode := 1, report := some f.report }

/-- Runs a command line.  One that is not understood exits with code 2. -/
def run (files : Files) (home fallback : Option String) (args : List String) : Answer :=
  match parse? fallback args with
  | none => { exitCode := 2 }
  | some c =>
    answer c.action (load files c.path (c.httpauthFile? home))

end BuildPlan.CommandLine
