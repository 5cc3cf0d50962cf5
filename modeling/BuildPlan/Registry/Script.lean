import BuildPlan.Event
import BuildPlan.Registry

/-!
# Scripts

A script says what the assembly of a project does, one step after the other: it reports events, looks
at the registry, registers projects, has projects resolved, and ends with a plan or an error.  What it
does next may depend on every answer it gets.
-/

namespace BuildPlan

/-- What an assembly does, with events of type `ε`. -/
inductive Script (ε : Type) where
  | finish (result : Except CompileError ProjectPlan)
  | emit (event : ε) (next : Script ε)
  | inspect (next : Registry → Script ε)
  | register (config : ProjectConfig) (next : Except CompileError Unit → Script ε)
  | resolve (name : String) (next : Except CompileError ProjectPlan → Script ε)

/-- How a run comes out: its result, the registry it leaves and the events it reported. -/
structure Outcome (ε α : Type) where
  result : Except CompileError α
  registry : Registry
  events : List ε

/-- The outcome with events that came before it. -/
def Outcome.after {ε α : Type} (earlier : List ε) (o : Outcome ε α) : Outcome ε α :=
  { o with events := earlier ++ o.events }

namespace Script

variable {ε : Type}

/-- Reports events in order. -/
def emitAll (events : List ε) (next : Script ε) : Script ε :=
  events.foldr .emit next

/-- Runs a script.  `nested` resolves projects for it, and may give up. -/
def run (nested : Registry → String → Option (Outcome ε ProjectPlan)) :
    Script ε → Registry → Option (Outcome ε ProjectPlan)
  | .finish result, r => some ⟨result, r, []⟩
  | .emit event next, r => (next.run nested r).map (Outcome.after [event])
  | .inspect next, r => (next r).run nested r
  | .register config next, r =>
    match r.register config with
    | .ok r' => (next (.ok ())).run nested r'
    | .error e => (next (.error e)).run nested r
  | .resolve name next, r =>
    match nested r name with
    | none => none
    | some o => ((next o.result).run nested o.registry).map (Outcome.after o.events)

/-- The script registers no project, whatever answers it gets. -/
def RegistersNothing : Script ε → Prop
  | .finish _ => True
  | .emit _ next => next.RegistersNothing
  | .inspect next => ∀ r, (next r).RegistersNothing
  | .register _ _ => False
  | .resolve _ next => ∀ answer, (next answer).RegistersNothing

end Script

/-- Assembles projects. -/
structure Assembler (ε : Type) where
  assemble : ProjectConfig → Script ε
  /-- What is reported for an event of the registry. -/
  report : RegistryEvent → ε

end BuildPlan
