import BuildPlan.Text.Blank

/-!
# Arguments

A command line names an action, `validate` or `compile`, with the path of a configuration file.  The
options `--httpauth` and `--json-logs` may stand before and behind the action, `--pretty` belongs to
`compile`; each may be given once in either place.  Behind `--` there are only paths.
-/

namespace BuildPlan.CommandLine

/-- What is to be done with a configuration file. -/
inductive Action where
  | validate
  | compile (pretty : Bool)
  deriving DecidableEq, Repr

/-- A command line that has been understood. -/
structure Command where
  action : Action
  path : String
  /-- The credentials file, if one is named. -/
  httpauth : Option String
  deriving DecidableEq, Repr

/-- The arguments of one place. -/
structure Arguments where
  httpauth : Option String := none
  jsonLogs : Bool := false
  pretty : Bool := false
  path : Option String := none
  deriving DecidableEq, Repr

/-- The configuration file of a command line that names none. -/
def standardPath : String :=
  "buildmaster.kdl"

namespace Arguments

/-- Sets the credentials file, which is given once and is not empty. -/
def setHttpauth? (a : Arguments) (file : String) : Option Arguments :=
  if a.httpauth.isSome || file.isEmpty then none else some { a with httpauth := some file }

/-- Sets the path, which is given once and is not empty. -/
def setPath? (a : Arguments) (path : String) : Option Arguments :=
  if a.path.isSome || path.isEmpty then none else some { a with path := some path }

/-- Whether an argument is taken for an option.  A single dash is not. -/
def isOption (arg : String) : Bool :=
  Text.startsWith arg "-" && arg != "-"

/-- The value of an argument of the form `option=value`. -/
def attached? (option arg : String) : Option String :=
  let start := option ++ "="
  if Text.startsWith arg start then some (String.ofList (arg.toList.drop start.length)) else none

/-- Reads an option that stands for itself or has its value attached. -/
def readOption? (a : Arguments) (mayBePretty : Bool) (arg : String) : Option Arguments :=
  if arg = "--json-logs" then
    if a.jsonLogs then none else some { a with jsonLogs := true }
  else if arg = "--pretty" then
    if !mayBePretty || a.pretty then none else some { a with pretty := true }
  else (attached? "--httpauth" arg).bind a.setHttpauth?

/-- Reads the arguments behind `--`. -/
def readPaths? (a : Arguments) : List String → Option Arguments
  | [] => some a
  | arg :: rest => (a.setPath? arg).bind (readPaths? · rest)

/-- Reads the arguments behind the action. -/
def read? (mayBePretty : Bool) : Arguments → List String → Option Arguments
  | a, [] => some a
  | a, "--" :: rest => a.readPaths? rest
  | a, "--httpauth" :: rest =>
    match rest with
    | [] => none
    | file :: rest =>
      if isOption file then none
      else
        match a.setHttpauth? file with
        | some a => read? mayBePretty a rest
        | none => none
  | a, arg :: rest =>
    match if isOption arg then a.readOption? mayBePretty arg else a.setPath? arg with
    | some a => read? mayBePretty a rest
    | none => none

/-- Reads the arguments in front of the action, up to the action. -/
def readGlobal? : Arguments → List String → Option (Arguments × String × List String)
  | _, [] => none
  | _, "--" :: _ => none
  | a, "--httpauth" :: rest =>
    match rest with
    | [] => none
    | file :: rest =>
      if isOption file then none
      else
        match a.setHttpauth? file with
        | some a => readGlobal? a rest
        | none => none
  | a, arg :: rest =>
    if isOption arg then
      match a.readOption? false arg with
      | some a => readGlobal? a rest
      | none => none
    else some (a, arg, rest)

end Arguments

/-- The credentials file: the option behind the action, or else the one in front of it, or else the
fallback.  An empty fallback is refused wherever it would stand in for an option. -/
def httpauth? (front behind : Arguments) (fallback : Option String) : Option (Option String) :=
  if fallback = some "" ∧ (front.httpauth.isNone ∨ behind.httpauth.isNone) then none
  else some (behind.httpauth <|> front.httpauth <|> fallback)

/-- The action with the given name, and the arguments behind it. -/
def action? (name : String) (rest : List String) : Option (Action × Arguments) :=
  match name with
  | "validate" => (Arguments.read? false {} rest).map fun a => (.validate, a)
  | "compile" => (Arguments.read? true {} rest).map fun a => (.compile a.pretty, a)
  | _ => none

/-- Understands a command line; `fallback` is the credentials file that the environment names. -/
def parse? (fallback : Option String) (args : List String) : Option Command := do
  let (front, name, rest) ← Arguments.readGlobal? {} args
  let (action, behind) ← action? name rest
  let httpauth ← httpauth? front behind fallback
  return { action, path := behind.path.getD standardPath, httpauth }

end BuildPlan.CommandLine
