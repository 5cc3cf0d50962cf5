import BuildPlan.Change.Json
import BuildPlan.Notification.Json
import BuildPlan.Schedule.Json
import BuildPlan.Scheduler

/-!
# JSON form of schedulers

The trigger of a scheduler is a record tagged by `type`.
-/

namespace BuildPlan

namespace Trigger

/-- The kinds of triggers. -/
inductive Tag where
  | svnPoll
  | repositoryChange
  | fixedWindow
  | periodic
  | cron
  | dependent
  | dependencyWatch
  deriving DecidableEq, Repr

/-- The kinds in order, with their names. -/
def Tag.names : List (String × Tag) :=
  [("svn_poll", .svnPoll), ("repository_change", .repositoryChange), ("fixed_window", .fixedWindow),
    ("periodic", .periodic), ("cron", .cron), ("dependent", .dependent),
    ("dependency_watch", .dependencyWatch)]

/-- The JSON form of a trigger. -/
def toJson : Trigger → Json
  | .svnPoll repository => .obj [("type", .str "svn_poll"), ("repository", .str repository)]
  | .repositoryChange repository =>
    .obj [("type", .str "repository_change"), ("repository", .str repository)]
  | .fixedWindow timer =>
    .obj [("type", .str "fixed_window"), ("tree_stable_timer", .int timer.toNat)]
  | .periodic secs => .obj [("type", .str "periodic"), ("period_secs", .int secs.toNat)]
  | .cron spec => .obj (("type", .str "cron") :: spec.members)
  | .dependent parent => .obj [("type", .str "dependent"), ("upstream", .str parent)]
  | .dependencyWatch filter timer =>
    .obj [("type", .str "dependency_watch"), ("filter", filter.toJson),
      ("tree_stable_timer", .int timer.toNat)]

/-- Reads the fields of a trigger of the given kind. -/
def ofFields? (tag : Tag) (j : Json) : Option Trigger :=
  match tag with
  | .svnPoll => do
    let ms ← j.members? ["repository"]
    return .svnPoll (← Json.field? ms "repository" Json.str?)
  | .repositoryChange => do
    let ms ← j.members? ["repository"]
    return .repositoryChange (← Json.field? ms "repository" Json.str?)
  | .fixedWindow => do
    let ms ← j.members? ["tree_stable_timer"]
    return .fixedWindow (← Json.field? ms "tree_stable_timer" Json.uint64?)
  | .periodic => do
    let ms ← j.members? ["period_secs"]
    return .periodic (← Json.field? ms "period_secs" Json.uint64?)
  | .cron => return .cron (← CronSpec.ofJson? .buffered j)
  | .dependent => do
    let ms ← j.members? ["upstream"]
    return .dependent (← Json.field? ms "upstream" Json.str?)
  | .dependencyWatch => do
    let ms ← j.members? ["filter", "tree_stable_timer"]
    let filter ← Json.field? ms "filter" ChangeFilter.ofJson?
    let timer ← Json.field? ms "tree_stable_timer" Json.uint64?
    return .dependencyWatch filter timer

/-- Reads a trigger. -/
def ofJson? (j : Json) : Option Trigger := do
  let (tag, fields) ← Json.tagged? .direct "type" Tag.names j
  ofFields? tag fields

end Trigger

namespace Scheduler

/-- The JSON form of a scheduler. -/
def toJson (s : Scheduler) : Json :=
  .obj [("name", .str s.name), ("builder_names", BuilderName.listToJson s.builderNames),
    ("kind", s.trigger.toJson)]

/-- Reads a scheduler. -/
def ofJson? (j : Json) : Option Scheduler := do
  let ms ← j.members? ["name", "builder_names", "kind"]
  let name ← Json.field? ms "name" Json.str?
  let builderNames ← Json.field? ms "builder_names" (Json.list? BuilderName.ofJson?)
  let trigger ← Json.field? ms "kind" Trigger.ofJson?
  return { name, builderNames, trigger }

end Scheduler

end BuildPlan
