import BuildPlan.Compiler
import BuildPlan.Configuration.Project

/-!
# Configurations

A document has one node for the master, anywhere, and nodes for projects with different names; other
nodes do not count.  The master's node is read first.
-/

namespace BuildPlan

/-- The master and the projects of a document, in order. -/
structure Configuration where
  master : MasterSettings
  projects : List ProjectConfig
  deriving DecidableEq, Repr

namespace Configuration

/-- The settings in the one node of the master. -/
def readMaster (nodes : List Kdl.Node) : Except ConfigError MasterSettings :=
  match nodes.filter fun node => node.name == "master" with
  | [] => .error (.missing .master)
  | [node] => .ok (.ofNode node)
  | _ => .error (.duplicate .master)

/-- Reads the nodes of projects in order.  The first argument holds the names that are taken. -/
def readProjects (master : MasterSettings) (credentials : CredentialStore) :
    List String → List Kdl.Node → Except ConfigError (List ProjectConfig)
  | _, [] => .ok []
  | taken, node :: rest => do
    let project ← ProjectConfig.ofNode master credentials node
    if taken.contains project.name then
      throw (.duplicate (.project project.name))
    let projects ← readProjects master credentials (project.name :: taken) rest
    return project :: projects

/-- Reads the nodes of a document. -/
def ofNodes (credentials : CredentialStore) (nodes : List Kdl.Node) :
    Except ConfigError Configuration := do
  let master ← readMaster nodes
  let projects ←
    readProjects master credentials [] (nodes.filter fun node => node.name == "project")
  return { master, projects }

/-- Reads the text of a document. -/
def parse (credentials : CredentialStore) (text : String) : Except ConfigError Configuration :=
  match Kdl.Node.parse? text with
  | some nodes => ofNodes credentials nodes
  | none => .error .malformedDocument

/-- The compiler for the master of a configuration. -/
def compiler (c : Configuration) : Compiler :=
  { Compiler.ofWorkers c.master.directory with toolchain := .ofInterpreter c.master.interpreter }

end Configuration

end BuildPlan
