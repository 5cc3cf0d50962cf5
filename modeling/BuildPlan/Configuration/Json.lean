import BuildPlan.Configuration.Master
import BuildPlan.Json.Shape

/-!
# JSON form of master settings

A record in which the mail relay and the interpreter may be missing.
-/

namespace BuildPlan.MasterSettings

/-- The JSON form of master settings. -/
def toJson (m : MasterSettings) : Json :=
  .obj [("workers", .strings m.workers), ("mail_host", .ofOption .str m.mailHost),
    ("interpreter", .ofOption .str m.interpreter)]

/-- Reads master settings. -/
def ofJson? (j : Json) : Option MasterSettings := do
  let ms ← j.members? ["workers", "mail_host", "interpreter"]
  let workers ← Json.field? ms "workers" Json.strings?
  let mailHost ← Json.optionalField? ms "mail_host" Json.str?
  let interpreter ← Json.optionalField? ms "interpreter" Json.str?
  return { workers, mailHost, interpreter }

end BuildPlan.MasterSettings
