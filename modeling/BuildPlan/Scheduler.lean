import BuildPlan.BuilderName
import BuildPlan.Change
import BuildPlan.Schedule.Cron

/-!
# Schedulers

A scheduler starts its builders when its trigger fires.  Dependent schedulers refer to the scheduler
they wait for by its name.
-/

namespace BuildPlan

/-- When a scheduler fires. -/
inductive Trigger where
  /-- A poller sees a change in a Subversion repository. -/
  | svnPoll (repository : String)
  /-- A change arrives in any other repository. -/
  | repositoryChange (repository : String)
  /-- The tree has been stable for some seconds. -/
  | fixedWindow (treeStableTimer : UInt64)
  /-- Some seconds have passed. -/
  | periodic (periodSecs : UInt64)
  | cron (spec : CronSpec)
  /-- The builds of another scheduler have completed. -/
  | dependent (parent : String)
  /-- An important change has been stable for some seconds. -/
  | dependencyWatch (filter : ChangeFilter) (treeStableTimer : UInt64)
  deriving DecidableEq, Repr

/-- A named trigger with the builders it starts. -/
structure Scheduler where
  name : String
  builderNames : List BuilderName
  trigger : Trigger
  deriving DecidableEq, Repr

end BuildPlan
