import BuildPlan.Credentials
import BuildPlan.Json.Shape

/-!
# JSON form of credentials

A record that shows the password.
-/

namespace BuildPlan.Credentials

/-- The JSON form of credentials. -/
def toJson (c : Credentials) : Json :=
  .obj [("username", .str c.username), ("password", .str c.password)]

/-- Reads credentials. -/
def ofJson? (j : Json) : Option Credentials := do
  let ms ← j.members? ["username", "password"]
  let username ← Json.field? ms "username" Json.str?
  let password ← Json.field? ms "password" Json.str?
  return { username, password }

end BuildPlan.Credentials
