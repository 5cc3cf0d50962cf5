import BuildPlan.Compiler
import BuildPlan.Proofs.Registry.Consistency
import BuildPlan.Proofs.Resolution.Equation

/-!
# Assemblies of a compiler

What an assembly comes to once the parent has been resolved is a matter of the project and of the
schedulers of the parent (`Compiler.planWith`); it fails for a malformed locator and for nothing else.
With that, `Compiler.resolve` has an equation for each state in which it may find a project, and proofs
about it go by `Compiler.resolve_induction`, from a project to its parent.
-/

namespace BuildPlan

/-! ### Locators -/

/-- The project is hosted in CVS, and its repository is not a root and a module. -/
def ProjectConfig.LocatorMalformed (p : ProjectConfig) : Prop :=
  p.vcs = .cvs ∧ splitLocator? p.repository = none

instance (p : ProjectConfig) : Decidable p.LocatorMalformed :=
  inferInstanceAs (Decidable (_ ∧ _))

namespace Toolchain

variable {p : ProjectConfig}

theorem source_of_malformed (h : p.LocatorMalformed) :
    source p = .error (.malformedLocator p.repository) := by
  unfold source
  rw [h.1, h.2]

theorem exists_source (h : ¬ p.LocatorMalformed) : ∃ s, source p = .ok s := by
  unfold source
  cases hv : p.vcs with
  | svn => exact ⟨_, rfl⟩
  | git => exact ⟨_, rfl⟩
  | hg => exact ⟨_, rfl⟩
  | bzr => exact ⟨_, rfl⟩
  | cvs =>
    cases hs : splitLocator? p.repository with
    | none => exact absurd ⟨hv, hs⟩ h
    | some parts => exact ⟨_, rfl⟩

theorem pipeline_of_malformed (t : Toolchain) (h : p.LocatorMalformed) :
    t.pipeline p = .error (.malformedLocator p.repository) := by
  unfold pipeline checkout
  rw [source_of_malformed h]
  rfl

theorem exists_pipeline (t : Toolchain) (h : ¬ p.LocatorMalformed) :
    ∃ pipeline, t.pipeline p = .ok pipeline := by
  obtain ⟨s, hs⟩ := exists_source h
  unfold pipeline checkout
  rw [hs]
  exact ⟨_, rfl⟩

end Toolchain

/-! ### Runs of the parts of an assembly -/

namespace Script

theorem run_emitAll {ε : Type} {nested : Registry → String → Option (Outcome ε ProjectPlan)}
    (events : List ε) (s : Script ε) (r : Registry) :
    (emitAll events s).run nested r = (s.run nested r).map (Outcome.after events) := by
  induction events with
  | nil =>
    have hid : Outcome.after ([] : List ε) = (id : Outcome ε ProjectPlan → _) := rfl
    rw [hid, Option.map_id]
    rfl
  | cons event rest ih =>
    show ((emitAll rest s).run nested r).map (Outcome.after [event]) = _
    rw [ih, Option.map_map]
    rfl

end Script

namespace Compiler

/-- The plan of a project with a known worker, given the schedulers of its parent or why there are
none. -/
def planWith (c : Compiler) (p : ProjectConfig) (parents : Except CompileError (List Scheduler)) :
    Except CompileError ProjectPlan := do
  let parents ← parents
  let builders ← c.toolchain.builders p
  return { name := p.name, schedulers := p.schedulers parents, builders,
           notifier := (c.notifier p builders).1 }

/-- The last event of an assembly. -/
def closingEvent (p : ProjectConfig) : Except CompileError ProjectPlan → Event
  | .ok _ => .assembled p.name
  | .error e => .assemblyFailed p.name e

/-- What is reported about a pipeline and the builders and the notifier that are made from it. -/
def productEvents (c : Compiler) (p : ProjectConfig) : List Event :=
  match c.toolchain.pipeline p with
  | .ok pipeline =>
    builderEvents p pipeline ++ (c.notifier p (p.workers.map (Toolchain.builder p pipeline))).2
  | .error _ => []

/-- What is reported once the parent has been resolved. -/
def eventsWith (c : Compiler) (p : ProjectConfig) (parents : Except CompileError (List Scheduler)) :
    List Event :=
  (p.arrange parents).2 ++
    (if parents.isOk then c.productEvents p else []) ++ [closingEvent p (c.planWith p parents)]

/-- What is reported before the parent is resolved. -/
def openingEvents (c : Compiler) (p : ProjectConfig) : List Event :=
  .assembling p.name ::
    if c.unknownWorkers p = [] then [] else [.workersUnknown p.name (c.unknownWorkers p)]

variable {c : Compiler} {p : ProjectConfig} {parents : Except CompileError (List Scheduler)}
  {r : Registry} {name parent : String}

@[simp] theorem planWith_error (c : Compiler) (p : ProjectConfig) (e : CompileError) :
    c.planWith p (.error e) = .error e := rfl

theorem planWith_of_malformed (c : Compiler) (h : p.LocatorMalformed) (parents : List Scheduler) :
    c.planWith p (.ok parents) = .error (.malformedLocator p.repository) := by
  show (c.toolchain.builders p >>= _) = _
  unfold Toolchain.builders
  rw [Toolchain.pipeline_of_malformed _ h]
  rfl

theorem exists_planWith (c : Compiler) (h : ¬ p.LocatorMalformed) (parents : List Scheduler) :
    ∃ plan, c.planWith p (.ok parents) = .ok plan := by
  obtain ⟨pipeline, hp⟩ := c.toolchain.exists_pipeline h
  show ∃ plan, (c.toolchain.builders p >>= _) = .ok plan
  unfold Toolchain.builders
  rw [hp]
  exact ⟨_, rfl⟩

/-- The parts of a plan: its builders run the project's pipeline, and the notifier is asked for them. -/
theorem exists_pipeline_of_planWith {parents : List Scheduler} {plan : ProjectPlan}
    (h : c.planWith p (.ok parents) = .ok plan) :
    ∃ pipeline, c.toolchain.pipeline p = .ok pipeline ∧
      plan = { name := p.name
               schedulers := p.schedulers parents
               builders := p.workers.map (Toolchain.builder p pipeline)
               notifier := (c.notifier p (p.workers.map (Toolchain.builder p pipeline))).1 } := by
  have h' : (c.toolchain.builders p >>= _) = Except.ok plan := h
  unfold Toolchain.builders at h'
  cases hp : c.toolchain.pipeline p with
  | error e =>
    rw [hp] at h'
    cases h'
  | ok pipeline =>
    rw [hp] at h'
    exact ⟨pipeline, rfl, (Except.ok.inj h').symm⟩

section Run

variable {nested : Registry → String → Option (Outcome Event ProjectPlan)}

theorem run_close (p : ProjectConfig) (result : Except CompileError ProjectPlan) (r : Registry) :
    (close p result).run nested r = some ⟨result, r, [closingEvent p result]⟩ := by
  cases result <;> rfl

theorem run_finishWith (c : Compiler) (p : ProjectConfig) (parents : List Scheduler) (r : Registry) :
    (c.finishWith p (p.schedulers parents)).run nested r =
      some ⟨c.planWith p (.ok parents), r,
        c.productEvents p ++ [closingEvent p (c.planWith p (.ok parents))]⟩ := by
  have hplan : c.planWith p (.ok parents) = (c.toolchain.pipeline p >>= fun pipeline =>
      let builders := p.workers.map (Toolchain.builder p pipeline)
      .ok { name := p.name, schedulers := p.schedulers parents, builders,
            notifier := (c.notifier p builders).1 }) := by
    show (c.toolchain.builders p >>= _) = _
    unfold Toolchain.builders
    cases c.toolchain.pipeline p <;> rfl
  rw [hplan]
  unfold finishWith productEvents
  cases c.toolchain.pipeline p with
  | error e => exact run_close p _ r
  | ok pipeline =>
    show (Script.emitAll _ _).run nested r = _
    rw [Script.run_emitAll, run_close]
    rfl

theorem run_continueWith (c : Compiler) (p : ProjectConfig)
    (parents : Except CompileError (List Scheduler)) (r : Registry) :
    (c.continueWith p parents).run nested r =
      some ⟨c.planWith p parents, r, c.eventsWith p parents⟩ := by
  unfold continueWith
  rw [Script.run_emitAll]
  cases parents with
  | error e =>
    show Option.map _ ((close p (.error e)).run nested r) = _
    rw [run_close]
    rfl
  | ok parents =>
    show Option.map _ ((c.finishWith p (p.schedulers parents)).run nested r) = _
    rw [run_finishWith, Option.map_some]
    simp [Outcome.after, eventsWith, Except.isOk, Except.toBool]

/-- No worker is known: nothing is asked for. -/
theorem run_assemble_of_noWorker (h : c.knowsWorkerOf p = false) (r : Registry) :
    (c.assemble p).run nested r = some ⟨.error (.invalidWorkerSet p.workers), r,
      [.assembling p.name, .assemblyFailed p.name (.invalidWorkerSet p.workers)]⟩ := by
  unfold assemble
  rw [h]
  rfl

/-- Some worker is known: the parent is next. -/
theorem run_assemble_of_worker (h : c.knowsWorkerOf p = true) (r : Registry) :
    (c.assemble p).run nested r =
      ((c.resolveParent p).run nested r).map (Outcome.after (c.openingEvents p)) := by
  unfold assemble openingEvents
  rw [if_pos h]
  cases hu : c.unknownWorkers p with
  | nil => rfl
  | cons worker rest =>
    show Option.map _ (Option.map _ _) = _
    rw [Option.map_map]
    rfl

end Run

/-! ### Equations -/

theorem resolve_of_none (c : Compiler) (h : r.get? name = none) :
    c.resolve r name = ⟨.error (.unknownDependency name), r, []⟩ :=
  c.assembler.resolve_of_none c.assembler_registersNothing h

theorem resolve_of_resolved (c : Compiler) {plan : ProjectPlan}
    (h : r.get? name = some ⟨p, .resolved plan⟩) : c.resolve r name = ⟨.ok plan, r, []⟩ :=
  c.assembler.resolve_of_resolved c.assembler_registersNothing h

theorem resolve_of_inProgress (c : Compiler) (h : r.get? name = some ⟨p, .inProgress⟩) :
    c.resolve r name = ⟨.error (.dependencyCycle (r.loop name)), r,
      [.registry (.loopFound name (r.loop name))]⟩ :=
  c.assembler.resolve_of_inProgress c.assembler_registersNothing h

section Unresolved

variable (h : r.get? name = some ⟨p, .unresolved⟩)
include h

/-- An assembly that comes to an end with the answers of `resolve` is the one that takes place. -/
theorem resolve_of_run {o : Outcome Event ProjectPlan}
    (ho : (c.assemble p).run (fun r n => some (c.resolve r n)) (r.enter name) = some o) :
    c.resolve r name = ⟨o.result, o.registry.leave name o.result,
      .registry (.resolving name) :: o.events⟩ := by
  obtain ⟨o', hrun, heq⟩ := c.assembler.resolve_of_unresolved c.assembler_registersNothing h
  have hoo : o' = o := Option.some.inj (hrun.symm.trans ho)
  rw [hoo] at heq
  exact heq

/-- Without a known worker, the project fails at once and the registry is as it was. -/
theorem resolve_of_noWorker (hw : c.knowsWorkerOf p = false) :
    c.resolve r name = ⟨.error (.invalidWorkerSet p.workers), r,
      [.registry (.resolving name), .assembling p.name,
        .assemblyFailed p.name (.invalidWorkerSet p.workers)]⟩ := by
  rw [resolve_of_run h (run_assemble_of_noWorker hw _)]
  show Outcome.mk _ ((r.enter name).leave name (.error _)) _ = _
  rw [Registry.leave_enter_error h]

/-- A project without a parent. -/
theorem resolve_of_root (hw : c.knowsWorkerOf p) (hd : p.schedule.dependent = none) :
    c.resolve r name = ⟨c.planWith p (.ok []), (r.enter name).leave name (c.planWith p (.ok [])),
      .registry (.resolving name) :: (c.openingEvents p ++ c.eventsWith p (.ok []))⟩ := by
  refine resolve_of_run h (o := ⟨_, r.enter name, _⟩) ?_
  rw [run_assemble_of_worker hw]
  unfold resolveParent
  rw [hd]
  show Option.map _ ((c.continueWith p (.ok [])).run _ _) = _
  rw [run_continueWith]
  rfl

/-- A project with a parent: the parent is resolved while the project is under way. -/
theorem resolve_of_dependent (hw : c.knowsWorkerOf p) (hd : p.schedule.dependent = some parent) :
    let o := c.resolve (r.enter name) parent
    let parents := o.result.map ProjectPlan.schedulers
    c.resolve r name = ⟨c.planWith p parents, o.registry.leave name (c.planWith p parents),
      .registry (.resolving name) ::
        (c.openingEvents p ++ (o.events ++ c.eventsWith p parents))⟩ := by
  intro o parents
  refine resolve_of_run h (o := ⟨_, o.registry, _⟩) ?_
  rw [run_assemble_of_worker hw]
  unfold resolveParent
  rw [hd]
  show Option.map _ (Option.map _ ((c.continueWith p parents).run _ _)) = _
  rw [run_continueWith]
  rfl

end Unresolved

/-- To prove something of every resolution, follow it from a project to its parent, with one more
project under way. -/
@[elab_as_elim]
theorem resolve_induction (c : Compiler) {motive : Registry → String → Prop}
    (unknown : ∀ r name, r.get? name = none → motive r name)
    (resolved : ∀ r name p plan, r.get? name = some ⟨p, .resolved plan⟩ → motive r name)
    (underWay : ∀ r name p, r.get? name = some ⟨p, .inProgress⟩ → motive r name)
    (noWorker : ∀ r name p, r.get? name = some ⟨p, .unresolved⟩ → c.knowsWorkerOf p = false →
      motive r name)
    (root : ∀ r name p, r.get? name = some ⟨p, .unresolved⟩ → c.knowsWorkerOf p →
      p.schedule.dependent = none → motive r name)
    (child : ∀ r name p parent, r.get? name = some ⟨p, .unresolved⟩ → c.knowsWorkerOf p →
      p.schedule.dependent = some parent → motive (r.enter name) parent → motive r name)
    (r : Registry) (name : String) : motive r name := by
  -- by induction on how many projects are unresolved: inside of an assembly there is one less
  induction hn : r.unresolvedCount using Nat.strongRecOn generalizing r name with
  | ind n ih =>
    subst hn
    cases he : r.get? name with
    | none => exact unknown r name he
    | some e =>
      obtain ⟨p, state⟩ := e
      cases state with
      | resolved plan => exact resolved r name p plan he
      | inProgress => exact underWay r name p he
      | unresolved =>
        cases hw : c.knowsWorkerOf p with
        | false => exact noWorker r name p he hw
        | true =>
          cases hd : p.schedule.dependent with
          | none => exact root r name p he hw hd
          | some parent =>
            have hlt := Registry.unresolvedCount_enter_lt he
            exact child r name p parent he hw hd (ih _ hlt _ _ rfl)

end Compiler

end BuildPlan
