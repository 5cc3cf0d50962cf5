import BuildPlan.Event
import BuildPlan.Plan
import BuildPlan.Project

/-!
# Schedulers of projects

A project has schedulers of its own, by its version control system and its scheduling policies, one
dependent scheduler for each scheduler of its parent, and a watch over the paths it depends on; they
stand in this order, and each starts all builders of the project.
-/

namespace BuildPlan

namespace ProjectConfig

/-- The names of the project's builders, one for each worker. -/
def builderNames (c : ProjectConfig) : List BuilderName :=
  c.workers.map (.ofPair c.name)

/-- A scheduler for all builders of the project. -/
def scheduler (c : ProjectConfig) (name : String) (trigger : Trigger) : Scheduler :=
  { name, builderNames := c.builderNames, trigger }

/-- What tells of a change in the repository; some systems have nothing that does. -/
def vcsTrigger? (c : ProjectConfig) : Option Trigger :=
  match c.vcs with
  | .svn => some (.svnPoll c.repository)
  | .git | .hg => some (.repositoryChange c.repository)
  | .bzr | .cvs => none

/-- The schedulers by version control system and by scheduling policy; they come before all others. -/
def ownSchedulers (c : ProjectConfig) : List Scheduler :=
  (c.vcsTrigger?.map fun trigger => c.scheduler ("Scheduler for " ++ c.name) trigger).toList ++
  (c.schedule.fixedWindow.map fun window =>
    c.scheduler ("Default scheduler for " ++ c.name) (.fixedWindow window.secs)).toList ++
  (c.schedule.periodic.map fun period =>
    c.scheduler ("Periodic scheduler for " ++ c.name) (.periodic period.secs)).toList ++
  (c.schedule.cron.map fun cron =>
    c.scheduler ("Cron scheduler for " ++ c.name ++ " at " ++ cron.text) (.cron cron)).toList

/-- The scheduler that waits for a scheduler of the parent. -/
def dependentScheduler (c : ProjectConfig) (parent : Scheduler) : Scheduler :=
  c.scheduler
    ("Dependent scheduler between scheduler <" ++ parent.name ++ "> and project " ++ c.name)
    (.dependent parent.name)

/-- How long a change of a watched path has to be stable, in seconds. -/
def watchTimer : UInt64 :=
  60

/-- The scheduler that watches the paths the project depends on. -/
def watchScheduler? (c : ProjectConfig) : Option Scheduler :=
  if c.dependencies.isEmpty then none
  else
    some <| c.scheduler
      ("Dependency scheduler watching " ++
        String.intercalate ", " (c.dependencies.map fun d => "'" ++ d ++ "'") ++ " for " ++ c.name)
      (.dependencyWatch ⟨c.dependencies⟩ watchTimer)

/-- All schedulers of a project whose parent has the given ones. -/
def schedulers (c : ProjectConfig) (parents : List Scheduler) : List Scheduler :=
  c.ownSchedulers ++ parents.map c.dependentScheduler ++ c.watchScheduler?.toList

/-- The schedulers of a project, given those of its parent or why there are none, and what is
reported.  A project without a parent is given an empty list. -/
def arrange (c : ProjectConfig) (parents : Except CompileError (List Scheduler)) :
    Except CompileError (List Scheduler) × List Event :=
  match parents with
  | .ok parents =>
    (.ok (c.schedulers parents),
      [.schedulersAdded c.name ((c.schedulers parents).map Scheduler.name)])
  | .error e => (.error e, [.parentFailed c.name (c.schedule.dependent.getD "") e])

end ProjectConfig

end BuildPlan
