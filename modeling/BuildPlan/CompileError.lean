import BuildPlan.Text.Quoted

/-!
# Compilation errors

Why a project configuration is refused, or why a project cannot be resolved.  `CompileError.message`
is the one place that words a cause.
-/

namespace BuildPlan

/-- The scheduling options that are given as text. -/
inductive ScheduleOption where
  | window
  | period
  | cron
  deriving DecidableEq, Repr

/-- The name of the option in messages. -/
def ScheduleOption.label : ScheduleOption → String
  | .window => "default scheduler"
  | .period => "periodic scheduler"
  | .cron => "cron scheduler"

/-- The options that limit the time of steps. -/
inductive TimeoutOption where
  | global
  | build
  | test
  deriving DecidableEq, Repr

/-- The name of the option in messages. -/
def TimeoutOption.label : TimeoutOption → String
  | .global => "timeout"
  | .build => "build timeout"
  | .test => "test timeout"

/-- What makes a configuration invalid. -/
inductive ConfigFault where
  | blankName
  | nonPositive (option : TimeoutOption) (secs : Int)
  | unknownMode (text : String)
  | duplicateProject (name : String)
  | conflictingProject (name : String)
  /-- A reason of an assembler's own. -/
  | refused (reason : String)
  deriving DecidableEq, Repr

/-- The wording of a fault. -/
def ConfigFault.message : ConfigFault → String
  | .blankName => "project name must not be empty"
  | .nonPositive option secs =>
    option.label ++ " must be a positive number of seconds, got " ++ toString secs
  | .unknownMode text => "unknown vcs mode: " ++ text
  | .duplicateProject name => "duplicate project: " ++ name
  | .conflictingProject name =>
    "project " ++ name ++ " is already registered with a different configuration"
  | .refused reason => reason

/-- Why a project cannot be compiled. -/
inductive CompileError where
  /-- None of the project's workers is known. -/
  | invalidWorkerSet (workers : List String)
  | unsupportedVcs (name : String)
  | malformedSchedule (option : ScheduleOption) (text : String)
  | unknownDependency (name : String)
  /-- A path of dependencies that ends where it begins. -/
  | dependencyCycle (path : List String)
  | malformedLocator (locator : String)
  | invalidConfig (fault : ConfigFault)
  deriving DecidableEq, Repr

/-- The wording of an error. -/
def CompileError.message : CompileError → String
  | .invalidWorkerSet workers => "no valid worker name in " ++ Text.quotedList workers
  | .unsupportedVcs name => name ++ " not supported yet"
  | .malformedSchedule option text =>
    "invalid " ++ option.label ++ " definition: " ++ Text.quoted text
  | .unknownDependency name => "unknown project: " ++ name
  | .dependencyCycle path => "dependency loop detected: " ++ String.intercalate " -> " path
  | .malformedLocator locator =>
    "malformed repository locator " ++ Text.quoted locator ++ ": expected <root>!<module>"
  | .invalidConfig fault => "invalid configuration: " ++ fault.message

end BuildPlan
