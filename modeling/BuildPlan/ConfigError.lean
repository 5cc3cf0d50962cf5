import BuildPlan.CompileError

/-!
# Configuration errors

Why a file cannot be read, and why a document or a credentials file is refused.
-/

namespace BuildPlan

/-- Why a file cannot be read. -/
inductive ReadError where
  | notFound
  | isDirectory
  /-- Something on the way to the file is no directory. -/
  | notDirectory
  | denied
  | invalidUtf8
  /-- Any other reason, in the words of the system. -/
  | other (reason : String)
  deriving DecidableEq, Repr

/-- The wording of an error. -/
def ReadError.message : ReadError → String
  | .notFound => "No such file or directory (os error 2)"
  | .isDirectory => "Is a directory (os error 21)"
  | .notDirectory => "Not a directory (os error 20)"
  | .denied => "Permission denied (os error 13)"
  | .invalidUtf8 => "stream did not contain valid UTF-8"
  | .other reason => reason

/-- What a configuration has to have. -/
inductive Required where
  | master
  | projectName
  | repository (project : String)
  | option (key project : String)
  deriving DecidableEq, Repr

/-- The name of a requirement in messages. -/
def Required.label : Required → String
  | .master => "master"
  | .projectName => "project name"
  | .repository project => "repository for project '" ++ project ++ "'"
  | .option key project => key ++ " for project '" ++ project ++ "'"

/-- A value that does not have the form it should have. -/
inductive Malformed where
  /-- A line of a credentials file, by its number, with its count of fields. -/
  | credentialLine (number count : Nat)
  /-- The text of an option that is a number of seconds. -/
  | seconds (key project text : String)
  deriving DecidableEq, Repr

/-- Where the value stands, in messages. -/
def Malformed.place : Malformed → String
  | .credentialLine number _ => ".httpauth line " ++ toString number
  | .seconds key project _ => key ++ " for project '" ++ project ++ "'"

/-- What is wrong with the value, in messages. -/
def Malformed.reason : Malformed → String
  | .credentialLine _ count => "expected 4 comma-separated fields, got " ++ toString count
  | .seconds _ _ text => "expected a number of seconds, got " ++ Text.quoted text

/-- What is defined only once. -/
inductive Declared where
  | master
  | project (name : String)
  deriving DecidableEq, Repr

/-- The name of a definition in messages. -/
def Declared.label : Declared → String
  | .master => "master"
  | .project name => "project '" ++ name ++ "'"

/-- Why a configuration cannot be read. -/
inductive ConfigError where
  /-- The text is no document. -/
  | malformedDocument
  | missing (what : Required)
  | invalid (what : Malformed)
  | duplicate (what : Declared)
  | project (name : String) (source : CompileError)
  | unreadable (source : ReadError)
  deriving DecidableEq, Repr

namespace ConfigError

/-- What is wrong with a text that is no document. -/
def documentReason : String :=
  "Failed to parse KDL document"

/-- The wording of an error. -/
def message : ConfigError → String
  | .malformedDocument => "KDL parse error: " ++ documentReason
  | .missing what => "missing required field: " ++ what.label
  | .invalid what => "invalid value for " ++ what.place ++ ": " ++ what.reason
  | .duplicate what => "duplicate definition: " ++ what.label
  | .project name source => "project " ++ name ++ ": " ++ source.message
  | .unreadable source => "IO error: " ++ source.message

/-- The wording of an error and of what lies behind it. -/
def causes (e : ConfigError) : List String :=
  match e with
  | .malformedDocument => [e.message, documentReason]
  | .project _ source => [e.message, source.message]
  | .unreadable source => [e.message, source.message]
  | .missing _ | .invalid _ | .duplicate _ => [e.message]

end ConfigError

end BuildPlan
