import BuildPlan.Text.Quoted

/-!
# Credentials

The user name and password of a repository, and stores that answer with them.
-/

namespace BuildPlan

/-- A user name and a password. -/
structure Credentials where
  username : String
  password : String
  deriving DecidableEq, Repr

/-- A description that hides the password. -/
def Credentials.describe (c : Credentials) : String :=
  "Credentials \x7b username: " ++ Text.quoted c.username ++ ", password: \"***\" \x7d"

/-- Answers with the credentials for a repository, if there are any. -/
abbrev CredentialStore := String → Option Credentials

/-- The store without credentials. -/
def CredentialStore.empty : CredentialStore :=
  fun _ => none

end BuildPlan
