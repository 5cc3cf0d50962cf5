import BuildPlan.CompileError
import BuildPlan.Notification

/-!
# Events

What happens while projects are resolved and assembled.  An event has a level, a message and named
fields; the fields hold texts, lists of quoted texts, and counts.
-/

namespace BuildPlan

/-- What a registry reports. -/
inductive RegistryEvent where
  | resolving (project : String)
  | loopFound (project : String) (path : List String)
  deriving DecidableEq, Repr

/-- What a compilation reports. -/
inductive Event where
  | registry (e : RegistryEvent)
  | assembling (project : String)
  | assembled (project : String)
  | assemblyFailed (project : String) (error : CompileError)
  | workersUnknown (project : String) (workers : List String)
  | parentFailed (project parent : String) (error : CompileError)
  | schedulersAdded (project : String) (schedulers : List String)
  | pipelineAssembled (project : String) (steps : Nat)
  | workerAdded (project worker : String)
  | notifierSkipped (project sender : String) (recipients : List String)
  | notifierRefused (project sender : String) (recipients : List String) (error : NotifierError)
  | masterCompiled (projects schedulers builders : Nat)
  deriving DecidableEq, Repr

/-- How grave an event is. -/
inductive Level where
  | debug
  | info
  | warn
  | error
  deriving DecidableEq, Repr

/-- The name of a level. -/
def Level.name : Level → String
  | .debug => "DEBUG"
  | .info => "INFO"
  | .warn => "WARN"
  | .error => "ERROR"

/-- The value of a field. -/
inductive FieldValue where
  | text (s : String)
  | count (n : Nat)
  deriving DecidableEq, Repr

/-- A list as the value of a field. -/
def FieldValue.list (ss : List String) : FieldValue :=
  .text (Text.quotedList ss)

namespace RegistryEvent

/-- How grave the event is. -/
def level : RegistryEvent → Level
  | .resolving _ => .debug
  | .loopFound _ _ => .warn

/-- What the event says. -/
def message : RegistryEvent → String
  | .resolving _ => "Resolving project"
  | .loopFound _ _ => "Dependency loop detected"

/-- The fields of the event. -/
def fields : RegistryEvent → List (String × FieldValue)
  | .resolving project => [("project", .text project)]
  | .loopFound project path => [("project", .text project), ("cycle", .list path)]

end RegistryEvent

namespace Event

/-- How grave the event is. -/
def level : Event → Level
  | .registry e => e.level
  | .assembling _ | .assembled _ | .schedulersAdded _ _ | .workerAdded _ _ => .info
  | .notifierSkipped _ _ _ | .masterCompiled _ _ _ => .info
  | .workersUnknown _ _ | .notifierRefused _ _ _ _ => .warn
  | .assemblyFailed _ _ | .parentFailed _ _ _ => .error
  | .pipelineAssembled _ _ => .debug

/-- What the event says. -/
def message : Event → String
  | .registry e => e.message
  | .assembling _ => "Trying to add project"
  | .assembled _ => "Project added"
  | .assemblyFailed _ _ => "Error while adding project"
  | .workersUnknown _ _ => "Project names unknown workers"
  | .parentFailed _ _ _ => "Invalid project selected as dependency"
  | .schedulersAdded _ _ => "Adding schedulers"
  | .pipelineAssembled _ _ => "Assembled pipeline"
  | .workerAdded _ _ => "Adding worker to project"
  | .notifierSkipped _ _ _ => "Skipping mail notifier"
  | .notifierRefused _ _ _ _ => "Error adding mail notifier"
  | .masterCompiled _ _ _ => "Compiled master configuration"

/-- The fields of the event. -/
def fields : Event → List (String × FieldValue)
  | .registry e => e.fields
  | .assembling project | .assembled project => [("project", .text project)]
  | .assemblyFailed project error => [("project", .text project), ("error", .text error.message)]
  | .workersUnknown project workers => [("project", .text project), ("workers", .list workers)]
  | .parentFailed project parent error =>
    [("project", .text project), ("parent", .text parent), ("error", .text error.message)]
  | .schedulersAdded project schedulers =>
    [("project", .text project), ("schedulers", .list schedulers)]
  | .pipelineAssembled project steps => [("project", .text project), ("steps", .count steps)]
  | .workerAdded project worker => [("project", .text project), ("worker", .text worker)]
  | .notifierSkipped project sender recipients =>
    [("project", .text project), ("from", .text sender), ("to", .list recipients)]
  | .notifierRefused project sender recipients error =>
    [("project", .text project), ("from", .text sender), ("to", .list recipients),
      ("error", .text error.message)]
  | .masterCompiled projects schedulers builders =>
    [("projects", .count projects), ("schedulers", .count schedulers), ("builders", .count builders)]

end Event

end BuildPlan
