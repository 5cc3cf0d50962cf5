import BuildPlan.Plan
import BuildPlan.Project

/-!
# Registries

A registry holds project configurations under their names, and for each of them how far its resolution
has come.  Apart from the entries it keeps three lists of names: the declared ones, the resolved ones and
those whose assembly is under way.
-/

namespace BuildPlan

/-- How far the resolution of a project has come. -/
inductive Resolution where
  | unresolved
  /-- The assembly is under way; to need the project now is a loop. -/
  | inProgress
  | resolved (plan : ProjectPlan)
  deriving DecidableEq, Repr

/-- A registered project. -/
structure RegistryEntry where
  config : ProjectConfig
  state : Resolution
  deriving DecidableEq, Repr

/-- The registered projects and the progress of their resolution. -/
structure Registry where
  /-- The registered projects.  An entry is found under the name of its project; in which order the entries
  stand is never asked for. -/
  entries : List RegistryEntry := []
  /-- The registered names in order of declaration. -/
  order : List String := []
  /-- The names of resolved projects in the order in which they were resolved. -/
  resolvedNames : List String := []
  /-- The names of projects under way, outermost first. -/
  stack : List String := []
  deriving DecidableEq, Repr

namespace Registry

/-- The entry of a name. -/
def get? (r : Registry) (name : String) : Option RegistryEntry :=
  r.entries.find? fun e => e.config.name == name

/-- Whether the name is registered. -/
def contains (r : Registry) (name : String) : Bool :=
  (r.get? name).isSome

/-- The configuration registered under a name. -/
def config? (r : Registry) (name : String) : Option ProjectConfig :=
  (r.get? name).map RegistryEntry.config

/-- The progress of a name. -/
def state? (r : Registry) (name : String) : Option Resolution :=
  (r.get? name).map RegistryEntry.state

/-- The registered names in order of declaration. -/
def names (r : Registry) : List String :=
  r.order

/-- How many projects are registered. -/
def size (r : Registry) : Nat :=
  r.order.length

/-- The plan of a resolved project. -/
def plan? (r : Registry) (name : String) : Option ProjectPlan :=
  match r.state? name with
  | some (.resolved plan) => some plan
  | _ => none

/-- The plans of the resolved projects, in the order in which they were resolved. -/
def plans (r : Registry) : List ProjectPlan :=
  r.resolvedNames.filterMap r.plan?

/-- Puts an entry under the name of its project, in place of one that is there. -/
def insert (e : RegistryEntry) : List RegistryEntry → List RegistryEntry
  | [] => [e]
  | e' :: rest => if e'.config.name = e.config.name then e :: rest else e' :: insert e rest

/-- Registers a project behind those that are there; its name has to be new. -/
def register (r : Registry) (config : ProjectConfig) : Except CompileError Registry :=
  if r.contains config.name then .error (.invalidConfig (.duplicateProject config.name))
  else
    .ok { r with
      order := r.order ++ [config.name]
      entries := insert ⟨config, .unresolved⟩ r.entries }

/-- The registry of the given projects, in order. -/
def ofConfigs (configs : List ProjectConfig) : Except CompileError Registry :=
  configs.foldlM register {}

/-- Gives the entry of a name another state. -/
def setState (name : String) (state : Resolution) : List RegistryEntry → List RegistryEntry
  | [] => []
  | e :: rest =>
    if e.config.name = name then { e with state } :: rest else e :: setState name state rest

/-- The assembly of a project begins. -/
def enter (r : Registry) (name : String) : Registry :=
  { r with entries := setState name .inProgress r.entries, stack := r.stack ++ [name] }

/-- The innermost assembly ends; a failed one leaves its project unresolved. -/
def leave (r : Registry) (name : String) : Except CompileError ProjectPlan → Registry
  | .ok plan =>
    { r with
      entries := setState name (.resolved plan) r.entries
      resolvedNames := r.resolvedNames ++ [name]
      stack := r.stack.dropLast }
  | .error _ =>
    { r with entries := setState name .unresolved r.entries, stack := r.stack.dropLast }

/-- The path from a project under way through the ones inside of it, back to itself.  For a name that is not
on the stack it would begin with the outermost project. -/
def loop (r : Registry) (name : String) : List String :=
  r.stack.drop ((r.stack.idxOf? name).getD 0) ++ [name]

/-- How many projects are unresolved. -/
def unresolvedCount (r : Registry) : Nat :=
  r.entries.countP fun e => e.state == .unresolved

end Registry

end BuildPlan
