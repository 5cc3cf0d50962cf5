import BuildPlan.Kdl.Node
import BuildPlan.Text.Blank
import BuildPlan.WorkerDirectory

/-!
# Master settings

The node of the master names the workers it knows, the mail relay that projects use unless they name
one, and the interpreter of `python` commands.
-/

namespace BuildPlan

/-- The settings of the master. -/
structure MasterSettings where
  workers : List String := []
  mailHost : Option String := none
  interpreter : Option String := none
  deriving DecidableEq, Repr

namespace MasterSettings

/-- The workers the master knows. -/
def directory (m : MasterSettings) : WorkerDirectory :=
  .ofList m.workers

/-- Reads one option; an unknown one changes nothing. -/
def readOption (m : MasterSettings) (node : Kdl.Node) : MasterSettings :=
  match node.key with
  | "workers" | "worker" | "slaves" =>
    { m with workers := m.workers ++ node.texts.flatMap Text.words }
  | "mail-host" => { m with mailHost := node.firstText? }
  | "interpreter" => { m with interpreter := node.firstText? }
  | _ => m

/-- Reads the node of the master. -/
def ofNode (node : Kdl.Node) : MasterSettings :=
  node.children.foldl readOption {}

end MasterSettings

end BuildPlan
