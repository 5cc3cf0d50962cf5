import BuildPlan.Notification.Json
import BuildPlan.Pipeline.Json
import BuildPlan.Plan
import BuildPlan.Scheduler.Json

/-!
# JSON form of plans

Plans are only written; the parts of a project plan are read by `ProjectPlan.ofJson?`, which takes a
missing part for `null`.
-/

namespace BuildPlan

/-- The JSON form of a project plan. -/
def ProjectPlan.toJson (p : ProjectPlan) : Json :=
  .obj [("name", .str p.name), ("schedulers", .arr (p.schedulers.map Scheduler.toJson)),
    ("builders", .arr (p.builders.map Builder.toJson)),
    ("notifier", .ofOption MailNotifier.toJson p.notifier)]

/-- Reads a project plan. -/
def ProjectPlan.ofJson? (j : Json) : Option ProjectPlan := do
  let ms ← j.members? ["name", "schedulers", "builders", "notifier"]
  let name ← Json.field? ms "name" Json.str?
  let schedulers ← Json.field? ms "schedulers" (Json.list? Scheduler.ofJson?)
  let builders ← Json.field? ms "builders" (Json.list? Builder.ofJson?)
  let notifier ← Json.optionalField? ms "notifier" MailNotifier.ofJson?
  return { name, schedulers, builders, notifier }

/-- The JSON form of a master plan. -/
def MasterPlan.toJson (m : MasterPlan) : Json :=
  .obj [("schedulers", .arr (m.schedulers.map Scheduler.toJson)),
    ("builders", .arr (m.builders.map Builder.toJson)),
    ("notifiers", .arr (m.notifiers.map MailNotifier.toJson))]

end BuildPlan
