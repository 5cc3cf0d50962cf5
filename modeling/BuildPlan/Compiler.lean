import BuildPlan.Registry.Resolution
import BuildPlan.Scheduling
import BuildPlan.Toolchain
import BuildPlan.WorkerDirectory

/-!
# Compilation

A compiler assembles a project in stages: some worker has to be known, the parent is resolved and the
schedulers are arranged, the builders are made, and a notifier is asked for.  A refused notifier is left
out and does not fail the project.  `compileAll` resolves all projects of a registry in order of
declaration and installs them in the order in which they were resolved.
-/

namespace BuildPlan

/-- Assembles projects for a master. -/
structure Compiler where
  workers : WorkerDirectory
  notifiers : NotifierService
  toolchain : Toolchain

namespace Compiler

/-- The compiler for a directory of workers, with mail relays and the standard toolchain. -/
def ofWorkers (workers : WorkerDirectory) : Compiler :=
  { workers, notifiers := smtpService, toolchain := .ofInterpreter none }

/-- A description that leaves out the directory and the service. -/
def describe (c : Compiler) : String :=
  "ProjectCompiler \x7b pipelines: PipelineBuilder \x7b interpreter: " ++
    Text.quoted c.toolchain.interpreter ++
    ", retry: RetryPolicy \x7b attempts: " ++ toString c.toolchain.retry.attempts.toNat ++
    ", spacing_secs: " ++ toString c.toolchain.retry.spacingSecs.toNat ++ " \x7d \x7d, .. \x7d"

/-! ### Stages of an assembly -/

/-- The workers of a project that are not known. -/
def unknownWorkers (c : Compiler) (p : ProjectConfig) : List String :=
  p.workers.filter fun worker => !c.workers worker

/-- Whether one of the project's workers is known. -/
def knowsWorkerOf (c : Compiler) (p : ProjectConfig) : Bool :=
  p.workers.any c.workers

/-- What is reported when a pipeline has been assembled. -/
def pipelineEvents (p : ProjectConfig) (pipeline : Pipeline) : List Event :=
  [.pipelineAssembled p.name pipeline.steps.length]

/-- What is reported when the builders of a project have been made from a pipeline. -/
def builderEvents (p : ProjectConfig) (pipeline : Pipeline) : List Event :=
  pipelineEvents p pipeline ++ p.workers.map (.workerAdded p.name)

/-- The request for the notifier of a project. -/
def notifierRequest (p : ProjectConfig) (builders : List Builder) : NotifierRequest :=
  { builderNames := builders.map Builder.name
    sender := p.emailSender
    recipients := p.emailRecipients
    relayHost := p.mailHost }

/-- The notifier of a project, if it wants one and gets one, and what is reported. -/
def notifier (c : Compiler) (p : ProjectConfig) (builders : List Builder) :
    Option MailNotifier × List Event :=
  if p.wantsNotifications then
    match c.notifiers (notifierRequest p builders) with
    | .ok notifier => (some notifier, [])
    | .error e => (none, [.notifierRefused p.name p.emailSender p.emailRecipients e])
  else (none, [.notifierSkipped p.name p.emailSender p.emailRecipients])

/-! ### The assembly as a script -/

/-- The last event of an assembly and its end. -/
def close (p : ProjectConfig) (result : Except CompileError ProjectPlan) : Script Event :=
  match result with
  | .ok plan => .emit (.assembled p.name) (.finish (.ok plan))
  | .error e => .emit (.assemblyFailed p.name e) (.finish (.error e))

/-- What is left to do when the schedulers are there. -/
def finishWith (c : Compiler) (p : ProjectConfig) (schedulers : List Scheduler) : Script Event :=
  match c.toolchain.pipeline p with
  | .error e => close p (.error e)
  | .ok pipeline =>
    let builders := p.workers.map (Toolchain.builder p pipeline)
    let (notifier, events) := c.notifier p builders
    .emitAll (builderEvents p pipeline ++ events)
      (close p (.ok { name := p.name, schedulers, builders, notifier }))

/-- What is left to do when the parent has been resolved. -/
def continueWith (c : Compiler) (p : ProjectConfig) (parents : Except CompileError (List Scheduler)) :
    Script Event :=
  .emitAll (p.arrange parents).2
    (match (p.arrange parents).1 with
    | .ok schedulers => c.finishWith p schedulers
    | .error e => close p (.error e))

/-- The parent is resolved, if the project has one. -/
def resolveParent (c : Compiler) (p : ProjectConfig) : Script Event :=
  match p.schedule.dependent with
  | none => c.continueWith p (.ok [])
  | some parent => .resolve parent fun answer => c.continueWith p (answer.map ProjectPlan.schedulers)

/-- The assembly of a project. -/
def assemble (c : Compiler) (p : ProjectConfig) : Script Event :=
  .emit (.assembling p.name) <|
    if c.knowsWorkerOf p then
      match c.unknownWorkers p with
      | [] => c.resolveParent p
      | unknown => .emit (.workersUnknown p.name unknown) (c.resolveParent p)
    else close p (.error (.invalidWorkerSet p.workers))

/-- The compiler as an assembler of projects. -/
def assembler (c : Compiler) : Assembler Event :=
  { assemble := c.assemble, report := .registry }

/-! ### No assembly registers a project -/

theorem emitAll_registersNothing {s : Script Event} (events : List Event) (h : s.RegistersNothing) :
    (Script.emitAll events s).RegistersNothing := by
  induction events with
  | nil => exact h
  | cons _ _ ih => exact ih

theorem close_registersNothing (p : ProjectConfig) (result : Except CompileError ProjectPlan) :
    (close p result).RegistersNothing := by
  cases result <;> trivial

theorem continueWith_registersNothing (c : Compiler) (p : ProjectConfig)
    (parents : Except CompileError (List Scheduler)) :
    (c.continueWith p parents).RegistersNothing := by
  refine emitAll_registersNothing _ ?_
  split
  · unfold finishWith
    split
    · exact close_registersNothing _ _
    · exact emitAll_registersNothing _ (close_registersNothing _ _)
  · exact close_registersNothing _ _

theorem resolveParent_registersNothing (c : Compiler) (p : ProjectConfig) :
    (c.resolveParent p).RegistersNothing := by
  unfold resolveParent
  split
  · exact c.continueWith_registersNothing p _
  · exact fun _ => c.continueWith_registersNothing p _

theorem assembler_registersNothing (c : Compiler) : c.assembler.RegistersNothing := by
  intro p
  show (c.assemble p).RegistersNothing
  unfold assemble
  show (ite _ _ _ : Script Event).RegistersNothing
  split
  · split
    · exact c.resolveParent_registersNothing p
    · exact c.resolveParent_registersNothing p
  · exact close_registersNothing _ _

/-! ### Compiling registered projects -/

/-- Resolves a registered project. -/
def resolve (c : Compiler) (r : Registry) (name : String) : Outcome Event ProjectPlan :=
  c.assembler.resolve c.assembler_registersNothing r name

/-- Resolves projects in order, up to the first that fails. -/
def resolveEach (c : Compiler) : List String → Registry → Outcome Event Unit
  | [], r => ⟨.ok (), r, []⟩
  | name :: names, r =>
    let o := c.resolve r name
    match o.result with
    | .ok _ => (c.resolveEach names o.registry).after o.events
    | .error e => ⟨.error e, o.registry, o.events⟩

/-- Resolves all registered projects and installs them. -/
def compileAll (c : Compiler) (r : Registry) : Outcome Event MasterPlan :=
  let o := c.resolveEach r.names r
  match o.result with
  | .ok () =>
    let master := MasterPlan.ofPlans o.registry.plans
    { result := .ok master
      registry := o.registry
      events := o.events ++
        [.masterCompiled r.names.length master.schedulers.length master.builders.length] }
  | .error e => ⟨.error e, o.registry, o.events⟩

/-- Resolves one project, which is registered first if its name is new.  Under a name that is taken, the
configuration has to be the registered one. -/
def compile (c : Compiler) (r : Registry) (p : ProjectConfig) : Outcome Event ProjectPlan :=
  match r.config? p.name with
  | some registered =>
    if registered = p then c.resolve r p.name
    else ⟨.error (.invalidConfig (.conflictingProject p.name)), r, []⟩
  | none =>
    match r.register p with
    | .ok r' => c.resolve r' p.name
    | .error e => ⟨.error e, r, []⟩

end Compiler

end BuildPlan
