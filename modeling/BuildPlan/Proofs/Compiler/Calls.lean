import BuildPlan.Proofs.Compiler.Assembly
import BuildPlan.Proofs.Registry.Progress
import BuildPlan.Proofs.Resolution.Order

/-!
# Calls of a compiler

A registry that a compiler has been called on, whatever the calls were and however they came out, holds
no plan but the one that the compiler makes of the project and of its parent, and the parent has been
resolved before (`Compiler.Settled`).  A resolution keeps this, and so does every call.
-/

namespace BuildPlan

namespace Registry

variable {r r' : Registry} {p : ProjectConfig} {name parent : String} {parents : List Scheduler}

/-- The registered project waits for the schedulers of the other. -/
def DependsOn (r : Registry) (name parent : String) : Prop :=
  ∃ p, r.config? name = some p ∧ p.schedule.dependent = some parent

/-- The schedulers of the parent of a project, if the parent has been resolved; none if there is no
parent. -/
def parents? (r : Registry) (p : ProjectConfig) : Option (List Scheduler) :=
  match p.schedule.dependent with
  | none => some []
  | some parent => (r.plan? parent).map ProjectPlan.schedulers

theorem parents?_of_root (r : Registry) (h : p.schedule.dependent = none) :
    r.parents? p = some [] := by
  unfold parents?
  rw [h]

theorem parents?_of_dependent (r : Registry) (h : p.schedule.dependent = some parent) :
    r.parents? p = (r.plan? parent).map ProjectPlan.schedulers := by
  unfold parents?
  rw [h]

theorem Keeps.parents?_eq (hk : r.Keeps r') (h : r.parents? p = some parents) :
    r'.parents? p = some parents := by
  cases hd : p.schedule.dependent with
  | none =>
    rw [parents?_of_root r hd] at h
    rwa [parents?_of_root r' hd]
  | some parent =>
    rw [parents?_of_dependent r hd] at h
    obtain ⟨plan, hp, rfl⟩ := Option.map_eq_some_iff.mp h
    rw [parents?_of_dependent r' hd, hk.plan?_eq hp, Option.map_some]

end Registry

namespace Compiler

variable {c : Compiler} {r r' : Registry} {p : ProjectConfig} {name parent : String}
  {plan : ProjectPlan}

/-! ### What a resolution changes -/

/-- A resolution resolves projects and changes nothing else. -/
theorem exists_resolves (c : Compiler) (r : Registry) (name : String) :
    ∃ added, r.Resolves added (c.resolve r name).registry := by
  induction r, name using c.resolve_induction with
  | unknown r name he =>
    rw [resolve_of_none c he]
    exact ⟨[], .refl r⟩
  | resolved r name p plan he =>
    rw [resolve_of_resolved c he]
    exact ⟨[], .refl r⟩
  | underWay r name p he =>
    rw [resolve_of_inProgress c he]
    exact ⟨[], .refl r⟩
  | noWorker r name p he hw =>
    rw [resolve_of_noWorker he hw]
    exact ⟨[], .refl r⟩
  | root r name p he hw hd =>
    rw [resolve_of_root he hw hd]
    exact (Registry.Resolves.refl _).exists_leave he _
  | child r name p parent he hw hd ih =>
    obtain ⟨added, hr⟩ := ih
    rw [resolve_of_dependent he hw hd]
    exact hr.exists_leave he _

/-- The plan that a resolution gives is in the registry then. -/
theorem plan?_of_resolve (h : (c.resolve r name).result = .ok plan) :
    (c.resolve r name).registry.plan? name = some plan := by
  rw [Registry.plan?_eq_some_iff]
  revert h
  induction r, name using c.resolve_induction with
  | unknown r name he =>
    rw [resolve_of_none c he]
    intro h
    cases h
  | resolved r name p plan' he =>
    rw [resolve_of_resolved c he]
    rintro ⟨⟩
    exact Registry.state?_of_get? he
  | underWay r name p he =>
    rw [resolve_of_inProgress c he]
    intro h
    cases h
  | noWorker r name p he hw =>
    rw [resolve_of_noWorker he hw]
    intro h
    cases h
  | root r name p he hw hd =>
    rw [resolve_of_root he hw hd]
    intro (h : c.planWith p (.ok []) = .ok plan)
    have hi := Registry.state?_of_get? (Registry.get?_enter_self he)
    rw [h, Registry.state?_leave hi, if_pos rfl]
    rfl
  | child r name p parent he hw hd _ =>
    -- the parent has been resolved inside, and the project is still under way
    obtain ⟨added, hr⟩ := c.exists_resolves (r.enter name) parent
    rw [resolve_of_dependent he hw hd]
    intro (h : c.planWith p _ = .ok plan)
    have hi := Registry.state?_of_get? (hr.get?_of_enter he)
    rw [h, Registry.state?_leave hi, if_pos rfl]
    rfl

/-! ### The invariant -/

/-- Every plan in the registry is the one that the compiler makes of the project and its parent, and
parents have been resolved first. -/
structure Settled (c : Compiler) (r : Registry) : Prop where
  consistent : r.Consistent
  ordered : DependenciesFirst r.DependsOn r.resolvedNames
  planned : ∀ name p plan, r.get? name = some ⟨p, .resolved plan⟩ →
    c.knowsWorkerOf p ∧
      ∃ parents, r.parents? p = some parents ∧ c.planWith p (.ok parents) = .ok plan

theorem settled_empty (c : Compiler) : c.Settled {} where
  consistent := Registry.consistent_empty
  ordered := .nil
  planned name p plan h := by cases h

namespace Settled

theorem mem_resolvedNames_iff (h : c.Settled r) :
    name ∈ r.resolvedNames ↔ ∃ plan, r.plan? name = some plan := by
  simp only [Registry.plan?_eq_some_iff]
  exact h.consistent.mem_resolved_iff name

/-- A plan is made from no schedulers, or from those of the parent, which has a plan as well. -/
theorem plan_cases (h : c.Settled r) (hp : r.plan? name = some plan) :
    ∃ p, r.config? name = some p ∧ c.knowsWorkerOf p ∧
      ((p.schedule.dependent = none ∧ c.planWith p (.ok []) = .ok plan) ∨
      ∃ parent parentPlan, p.schedule.dependent = some parent ∧
        r.plan? parent = some parentPlan ∧ c.planWith p (.ok parentPlan.schedulers) = .ok plan) := by
  obtain ⟨p, he⟩ := Registry.state?_eq_some_iff.mp (Registry.plan?_eq_some_iff.mp hp)
  obtain ⟨hw, parents, hps, hplan⟩ := h.planned name p plan he
  refine ⟨p, Registry.config?_of_get? he, hw, ?_⟩
  cases hd : p.schedule.dependent with
  | none =>
    rw [Registry.parents?_of_root r hd] at hps
    cases hps
    exact Or.inl ⟨rfl, hplan⟩
  | some parent =>
    rw [Registry.parents?_of_dependent r hd] at hps
    obtain ⟨parentPlan, hparent, rfl⟩ := Option.map_eq_some_iff.mp hps
    exact Or.inr ⟨parent, parentPlan, rfl, hparent, hplan⟩

/-- Nothing is lost as long as the resolved projects are kept and no other is resolved. -/
theorem of_keeps (h : c.Settled r) (hc : r'.Consistent) (hl : r'.resolvedNames = r.resolvedNames)
    (hk : r.Keeps r') : c.Settled r' := by
  have entry : ∀ n ∈ r.resolvedNames, ∃ p plan,
      r.get? n = some ⟨p, .resolved plan⟩ ∧ r'.get? n = some ⟨p, .resolved plan⟩ := by
    intro n hn
    obtain ⟨plan, hp⟩ := (h.consistent.mem_resolved_iff n).mp hn
    obtain ⟨p, he⟩ := Registry.state?_eq_some_iff.mp hp
    exact ⟨p, plan, he, hk he⟩
  refine ⟨hc, ?_, fun n p plan he => ?_⟩
  · rw [hl]
    refine h.ordered.mono fun n hn m hm => ?_
    obtain ⟨q, hq, hd⟩ := hm
    obtain ⟨p, plan, he, he'⟩ := entry n hn
    rw [Registry.config?_of_get? he'] at hq
    exact ⟨q, (Registry.config?_of_get? he).trans hq, hd⟩
  · have hn : n ∈ r'.resolvedNames :=
      (hc.mem_resolved_iff n).mpr ⟨plan, Registry.state?_of_get? he⟩
    obtain ⟨p', plan', hr, hr'⟩ := entry n (hl ▸ hn)
    cases hr'.symm.trans he
    obtain ⟨hw, parents, hps, hplan⟩ := h.planned n p plan hr
    exact ⟨hw, parents, hk.parents?_eq hps, hplan⟩

theorem register (h : c.Settled r) (hr : r.register p = .ok r') : c.Settled r' := by
  refine h.of_keeps (h.consistent.register hr) ?_ (Registry.keeps_register hr)
  obtain ⟨-, rfl⟩ := Registry.register_eq_ok_iff.mp hr
  rfl

theorem enter (h : c.Settled r) (he : r.get? name = some ⟨p, .unresolved⟩) :
    c.Settled (r.enter name) :=
  h.of_keeps (h.consistent.enter he) rfl (Registry.keeps_enter he)

/-- The end of an assembly: if it succeeds, then with the plan that the compiler makes of the project
and the parent. -/
theorem leave (h : c.Settled r) {below : List String} (hs : r.stack = below ++ [name])
    (hi : r.get? name = some ⟨p, .inProgress⟩) (hw : c.knowsWorkerOf p)
    {result : Except CompileError ProjectPlan}
    (hp : ∀ plan, result = .ok plan →
      ∃ parents, r.parents? p = some parents ∧ c.planWith p (.ok parents) = .ok plan) :
    c.Settled (r.leave name result) := by
  have hc := h.consistent.leave hs result
  have hk := Registry.keeps_leave hi result
  cases result with
  | error e => exact h.of_keeps hc rfl hk
  | ok plan =>
    obtain ⟨parents, hps, hplan⟩ := hp plan rfl
    refine ⟨hc, ?_, fun n q plan' he => ?_⟩
    · rw [Registry.resolvedNames_leave_ok]
      have hdep : ∀ n m, (r.leave name (.ok plan)).DependsOn n m → r.DependsOn n m := by
        rintro n m ⟨q, hq, hd⟩
        rw [Registry.config?_leave] at hq
        exact ⟨q, hq, hd⟩
      -- the project comes last, so only its own parent has to stand in front
      refine DependenciesFirst.concat (h.ordered.mono fun n _ m => hdep n m) fun m hm => ?_
      obtain ⟨q, hq, hd⟩ := hdep name m hm
      cases (Registry.config?_of_get? hi).symm.trans hq
      rw [Registry.parents?_of_dependent r hd] at hps
      obtain ⟨plan', hm', -⟩ := Option.map_eq_some_iff.mp hps
      exact h.mem_resolvedNames_iff.mpr ⟨plan', hm'⟩
    · by_cases hne : n = name
      · -- the project itself, whose plan is new, or one whose plan is kept
        subst hne
        rw [Registry.get?_leave_self hi] at he
        cases he
        exact ⟨hw, parents, hk.parents?_eq hps, hplan⟩
      · rw [Registry.get?_leave_of_ne hne] at he
        obtain ⟨hw', parents', hps', hplan'⟩ := h.planned n q plan' he
        exact ⟨hw', parents', hk.parents?_eq hps', hplan'⟩

/-- A resolution keeps the invariant, whatever it comes to. -/
theorem resolve (h : c.Settled r) (name : String) : c.Settled (c.resolve r name).registry := by
  induction r, name using c.resolve_induction with
  | unknown r name he =>
    rw [resolve_of_none c he]
    exact h
  | resolved r name p plan he =>
    rw [resolve_of_resolved c he]
    exact h
  | underWay r name p he =>
    rw [resolve_of_inProgress c he]
    exact h
  | noWorker r name p he hw =>
    rw [resolve_of_noWorker he hw]
    exact h
  | root r name p he hw hd =>
    rw [resolve_of_root he hw hd]
    refine (h.enter he).leave rfl (Registry.get?_enter_self he) hw fun plan hp => ?_
    exact ⟨[], Registry.parents?_of_root _ hd, hp⟩
  | child r name p parent he hw hd ih =>
    obtain ⟨added, hr⟩ := c.exists_resolves (r.enter name) parent
    rw [resolve_of_dependent he hw hd]
    refine (ih (h.enter he)).leave hr.stack_eq (hr.get?_of_enter he) hw fun plan hp => ?_
    cases ha : (c.resolve (r.enter name) parent).result with
    | error e =>
      rw [ha] at hp
      cases hp
    | ok parentPlan =>
      rw [ha] at hp
      -- the parent has its plan by now, and the schedulers are those of the plan
      refine ⟨parentPlan.schedulers, ?_, hp⟩
      rw [Registry.parents?_of_dependent _ hd, plan?_of_resolve ha, Option.map_some]

end Settled

/-! ### Sequences of calls -/

/-- A call on a registry by which configurations come in or projects are resolved. -/
inductive Call where
  | register (p : ProjectConfig)
  | resolve (name : String)
  | compile (p : ProjectConfig)
  | compileAll

/-- The registry after a call, which may have failed. -/
def call (c : Compiler) (r : Registry) : Call → Registry
  | .register p =>
    match r.register p with
    | .ok r' => r'
    | .error _ => r
  | .resolve name => (c.resolve r name).registry
  | .compile p => (c.compile r p).registry
  | .compileAll => (c.compileAll r).registry

/-- The registry after calls on an empty one. -/
def calls (c : Compiler) (cs : List Call) : Registry :=
  cs.foldl c.call {}

section Calls

variable {motive : Registry → Prop}
  (register : ∀ r r' p, motive r → r.register p = .ok r' → motive r')
  (resolve : ∀ r name, motive r → motive (c.resolve r name).registry)

include resolve in
theorem resolveEach_induction (names : List String) (r : Registry) (h : motive r) :
    motive (c.resolveEach names r).registry := by
  induction names generalizing r with
  | nil => exact h
  | cons name rest ih =>
    have hr := resolve r name h
    unfold resolveEach
    dsimp only
    split
    · exact ih _ hr
    · exact hr

theorem compileAll_registry (c : Compiler) (r : Registry) :
    (c.compileAll r).registry = (c.resolveEach r.names r).registry := by
  unfold compileAll
  dsimp only
  split
  · rfl
  · rfl

include register resolve in
/-- What registrations and resolutions preserve, every call preserves. -/
theorem call_induction (r : Registry) (a : Call) (h : motive r) : motive (c.call r a) := by
  cases a with
  | register p =>
    unfold call
    dsimp only
    split
    · next r' hr => exact register r r' p h hr
    · exact h
  | resolve name => exact resolve r name h
  | compile p =>
    show motive (c.compile r p).registry
    unfold compile
    split
    · split
      · exact resolve r p.name h
      · exact h
    · split
      · next r' hr => exact resolve r' p.name (register r r' p h hr)
      · exact h
  | compileAll =>
    show motive (c.compileAll r).registry
    rw [compileAll_registry]
    exact resolveEach_induction resolve r.names r h

include register resolve in
/-- What holds of the empty registry and is preserved by registrations and resolutions, holds after all
calls. -/
theorem calls_induction (empty : motive {}) (cs : List Call) : motive (c.calls cs) := by
  unfold calls
  induction cs using List.reverseRecOn with
  | nil => exact empty
  | append_singleton cs a ih =>
    rw [List.foldl_concat]
    exact call_induction register resolve _ a ih

end Calls

theorem settled_calls (c : Compiler) (cs : List Call) : c.Settled (c.calls cs) :=
  calls_induction (fun _ _ _ h hr => h.register hr) (fun _ name h => h.resolve name)
    c.settled_empty cs

/-- Between calls nothing is under way. -/
theorem stack_calls (c : Compiler) (cs : List Call) : (c.calls cs).stack = [] := by
  refine calls_induction (motive := fun r => r.stack = []) (fun r r' p h hr => ?_)
    (fun r name h => ?_) rfl cs
  · obtain ⟨-, rfl⟩ := Registry.register_eq_ok_iff.mp hr
    exact h
  · obtain ⟨added, hr⟩ := c.exists_resolves r name
    exact hr.stack_eq.trans h

end Compiler

end BuildPlan
