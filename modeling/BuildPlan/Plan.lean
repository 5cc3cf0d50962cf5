import BuildPlan.Notification
import BuildPlan.Pipeline
import BuildPlan.Scheduler

/-!
# Plans

A project plan is what a project comes to: schedulers, builders and possibly a notifier.  A master plan
collects the plans that are installed on it, in order.
-/

namespace BuildPlan

/-- What is installed for one project. -/
structure ProjectPlan where
  name : String
  schedulers : List Scheduler
  builders : List Builder
  notifier : Option MailNotifier
  deriving DecidableEq, Repr

/-- The names of the plan's builders. -/
def ProjectPlan.builderNames (p : ProjectPlan) : List BuilderName :=
  p.builders.map Builder.name

/-- Everything that is installed on the master. -/
structure MasterPlan where
  schedulers : List Scheduler := []
  builders : List Builder := []
  notifiers : List MailNotifier := []
  deriving DecidableEq, Repr

namespace MasterPlan

/-- Adds a project's schedulers, builders and notifier behind those that are there. -/
def install (m : MasterPlan) (p : ProjectPlan) : MasterPlan :=
  { schedulers := m.schedulers ++ p.schedulers
    builders := m.builders ++ p.builders
    notifiers := m.notifiers ++ p.notifier.toList }

/-- Installs plans in order on an empty master. -/
def ofPlans (plans : List ProjectPlan) : MasterPlan :=
  plans.foldl install {}

end MasterPlan

end BuildPlan
