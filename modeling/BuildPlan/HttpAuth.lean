import BuildPlan.ConfigError
import BuildPlan.Credentials
import BuildPlan.Text.Blank

/-!
# Credentials files

Each line that is not blank has four fields with commas between them: a realm, the beginning of the
repositories it is for, a user name and a password.  The first line that is for a repository answers.
-/

namespace BuildPlan

/-- One line of a credentials file. -/
structure HttpAuthEntry where
  url : String
  credentials : Credentials
  deriving DecidableEq, Repr

/-- The lines of a credentials file. -/
structure HttpAuth where
  entries : List HttpAuthEntry := []
  deriving DecidableEq, Repr

namespace HttpAuth

/-- The trimmed fields of a line. -/
def fields (line : String) : List String :=
  (line.toList.splitOnP (· == ',')).map fun field => String.ofList (Chars.trim field)

/-- Reads the line with the given number; a blank line has no entry. -/
def readLine (line : String) (number : Nat) : Except ConfigError (Option HttpAuthEntry) :=
  if Text.isBlank line then .ok none
  else
    match fields line with
    | [_, url, username, password] => .ok (some ⟨url, ⟨username, password⟩⟩)
    | other => .error (.invalid (.credentialLine number other.length))

/-- Reads lines that are numbered from the given number on. -/
def readLines : List String → Nat → Except ConfigError (List HttpAuthEntry)
  | [], _ => .ok []
  | line :: rest, number => do
    let entry ← readLine line number
    let entries ← readLines rest (number + 1)
    return entry.toList ++ entries

/-- Reads a credentials file. -/
def parse (text : String) : Except ConfigError HttpAuth := do
  return ⟨← readLines (Text.lines text) 1⟩

/-- A file that is not there has no entries. -/
def ofFile : Except ReadError String → Except ConfigError HttpAuth
  | .ok text => parse text
  | .error .notFound => .ok {}
  | .error e => .error (.unreadable e)

/-- The credentials of the first entry for a repository. -/
def credentialsFor (h : HttpAuth) : CredentialStore := fun repository =>
  (h.entries.find? fun e => Text.startsWith repository e.url).map HttpAuthEntry.credentials

end HttpAuth

end BuildPlan
