import BuildPlan.Proofs.Compiler.History
import BuildPlan.Proofs.Project.Ancestry

/-!
# Plans of a registry

A plan says of which project it is, and the plans of a registry stand in the order in which the projects
were resolved, that of a parent in front of those of its children.  What is proved of a plan from the
plan of its parent holds of every plan (`Yields.plan_induction`).
-/

namespace BuildPlan

namespace Compiler

variable {c : Compiler} {r : Registry} {p : ProjectConfig} {name parent : String}
  {plan : ProjectPlan} {parents : List Scheduler} {before after : List ProjectPlan}

/-! ### Parts of a plan -/

theorem schedulers_of_planWith (h : c.planWith p (.ok parents) = .ok plan) :
    plan.schedulers = p.schedulers parents := by
  obtain ⟨pipeline, -, rfl⟩ := exists_pipeline_of_planWith h
  rfl

theorem name_of_planWith (h : c.planWith p (.ok parents) = .ok plan) : plan.name = p.name := by
  obtain ⟨pipeline, -, rfl⟩ := exists_pipeline_of_planWith h
  rfl

/-- The builders of a plan have the names that are told from the project. -/
theorem builderNames_of_planWith (h : c.planWith p (.ok parents) = .ok plan) :
    plan.builderNames = p.builderNames := by
  obtain ⟨pipeline, -, rfl⟩ := exists_pipeline_of_planWith h
  simp [ProjectPlan.builderNames, ProjectConfig.builderNames, Toolchain.builder]

/-- The builders of a plan are those that the toolchain makes for the project. -/
theorem builders_of_planWith (h : c.planWith p (.ok parents) = .ok plan) :
    c.toolchain.builders p = .ok plan.builders := by
  obtain ⟨pipeline, hp, rfl⟩ := exists_pipeline_of_planWith h
  simp only [Toolchain.builders, hp]
  rfl

/-- The notifier of a plan is asked for with the names of the plan's builders. -/
theorem exists_request_of_planWith {notifier : MailNotifier}
    (h : c.planWith p (.ok parents) = .ok plan) (hn : plan.notifier = some notifier) :
    ∃ request, request.builderNames = plan.builderNames ∧ c.notifiers request = .ok notifier := by
  obtain ⟨pipeline, -, rfl⟩ := exists_pipeline_of_planWith h
  refine ⟨notifierRequest p (p.workers.map (Toolchain.builder p pipeline)), rfl, ?_⟩
  dsimp only at hn
  unfold Compiler.notifier at hn
  split at hn
  · split at hn
    · next made hmade =>
      cases hn
      exact hmade
    · cases hn
  · cases hn

theorem workers_ne_nil (hw : c.knowsWorkerOf p) : p.workers ≠ [] := by
  rintro hnil
  rw [knowsWorkerOf, hnil] at hw
  cases hw

/-! ### Plans of a registry -/

/-- The plan is made of the project, of which a worker is known, and of some schedulers of a parent. -/
def Plans (c : Compiler) (p : ProjectConfig) (plan : ProjectPlan) : Prop :=
  c.knowsWorkerOf p ∧ ∃ parents, c.planWith p (.ok parents) = .ok plan

namespace Settled

/-- A plan is made of a registered project and of schedulers, of which there are none without a
parent. -/
theorem exists_planWith (h : c.Settled r) (hp : r.plan? name = some plan) :
    ∃ p parents, r.config? name = some p ∧ (p.schedule.dependent = none → parents = []) ∧
      c.planWith p (.ok parents) = .ok plan := by
  obtain ⟨p, hc, -, ⟨-, hplan⟩ | ⟨parent, parentPlan, hd, -, hplan⟩⟩ := h.plan_cases hp
  · exact ⟨p, [], hc, fun _ => rfl, hplan⟩
  · exact ⟨p, parentPlan.schedulers, hc, fun hn => by simp [hd] at hn, hplan⟩

/-- A plan is made of a registered project with a known worker. -/
theorem exists_plans (h : c.Settled r) (hp : r.plan? name = some plan) :
    ∃ p, r.config? name = some p ∧ c.Plans p plan := by
  obtain ⟨p, hc, hw, ⟨-, hplan⟩ | ⟨parent, parentPlan, -, -, hplan⟩⟩ := h.plan_cases hp
  · exact ⟨p, hc, hw, _, hplan⟩
  · exact ⟨p, hc, hw, _, hplan⟩

theorem name_of_plan? (h : c.Settled r) (hp : r.plan? name = some plan) : plan.name = name := by
  obtain ⟨p, parents, hc, -, hplan⟩ := h.exists_planWith hp
  exact (name_of_planWith hplan).trans (Registry.name_of_config? hc)

/-- The plans stand in the order in which the projects were resolved. -/
theorem map_name_plans (h : c.Settled r) : r.plans.map ProjectPlan.name = r.resolvedNames := by
  have hself : ∀ n ∈ r.resolvedNames, (r.plan? n).map ProjectPlan.name = some n := by
    intro n hn
    obtain ⟨plan, hp⟩ := h.mem_resolvedNames_iff.mp hn
    rw [hp, Option.map_some, h.name_of_plan? hp]
  unfold Registry.plans
  rw [List.map_filterMap, List.filterMap_congr hself, List.filterMap_some]

theorem plan?_of_mem_plans (h : c.Settled r) (hp : plan ∈ r.plans) :
    r.plan? plan.name = some plan := by
  obtain ⟨n, -, hn⟩ := List.mem_filterMap.mp hp
  rwa [h.name_of_plan? hn]

theorem mem_plans_of_plan? (h : c.Settled r) (hp : r.plan? name = some plan) : plan ∈ r.plans :=
  List.mem_filterMap.mpr ⟨name, h.mem_resolvedNames_iff.mpr ⟨plan, hp⟩, hp⟩

/-- All plans are those of different projects. -/
theorem nodup_plans (h : c.Settled r) : (r.plans.map ProjectPlan.name).Nodup := by
  rw [h.map_name_plans]
  exact h.consistent.resolved_nodup

/-- The plan of a parent stands in front of the plans of its children. -/
theorem exists_parent_before (h : c.Settled r) (hs : r.plans = before ++ plan :: after)
    (hd : r.DependsOn plan.name parent) :
    ∃ parentPlan ∈ before, r.plan? parent = some parentPlan := by
  have hl : r.resolvedNames =
      before.map ProjectPlan.name ++ plan.name :: after.map ProjectPlan.name := by
    rw [← h.map_name_plans, hs, List.map_append, List.map_cons]
  obtain ⟨parentPlan, hmem, rfl⟩ := List.mem_map.mp (h.ordered _ _ _ hl parent hd)
  refine ⟨parentPlan, hmem, h.plan?_of_mem_plans ?_⟩
  rw [hs]
  exact List.mem_append_left _ hmem

/-- The plans of a registry are made of the projects that have been resolved, in this order. -/
theorem exists_order (h : c.Settled r) :
    ∃ order : List ProjectConfig, (∀ p ∈ order, r.config? p.name = some p) ∧
      order.map ProjectConfig.name = r.resolvedNames ∧ List.Forall₂ c.Plans order r.plans := by
  rw [← h.map_name_plans]
  -- stated for part of the plans, so that the induction keeps them in the registry
  suffices hlist : ∀ plans : List ProjectPlan, (∀ plan ∈ plans, plan ∈ r.plans) →
      ∃ order : List ProjectConfig, (∀ p ∈ order, r.config? p.name = some p) ∧
        order.map ProjectConfig.name = plans.map ProjectPlan.name ∧ List.Forall₂ c.Plans order plans from
    hlist r.plans fun _ hp => hp
  intro plans hall
  induction plans with
  | nil => exact ⟨[], by simp, rfl, .nil⟩
  | cons plan rest ih =>
    obtain ⟨hp, hrest⟩ := List.forall_mem_cons.mp hall
    obtain ⟨order, hconfigs, hnames, hplans⟩ := ih hrest
    obtain ⟨p, hc, hmade⟩ := h.exists_plans (h.plan?_of_mem_plans hp)
    have hname : p.name = plan.name := Registry.name_of_config? hc
    exact ⟨p :: order, List.forall_mem_cons.mpr ⟨hname ▸ hc, hconfigs⟩, by simp [hname, hnames],
      .cons hmade hplans⟩

/-- A plan is what the project comes to if nothing has been resolved. -/
theorem yields_of_mem_plans (h : c.Settled r) (hp : plan ∈ r.plans) :
    c.Yields r.config? [] plan.name (.ok plan) := by
  have hplan := h.plan?_of_mem_plans hp
  obtain ⟨before, after, hl⟩ := List.append_of_mem (h.mem_resolvedNames_iff.mpr ⟨plan, hplan⟩)
  exact h.yields_of_plan? hl hplan (by simp)

end Settled

/-- To prove something of the plan that a project comes to, follow the project to its parent. -/
theorem Yields.plan_induction {config? : String → Option ProjectConfig} {stack : List String}
    {motive : ProjectPlan → Prop}
    (root : ∀ p plan, c.planWith p (.ok []) = .ok plan → motive plan)
    (child : ∀ p parentPlan plan, motive parentPlan →
      c.planWith p (.ok parentPlan.schedulers) = .ok plan → motive plan)
    {answer : Except CompileError ProjectPlan} (h : c.Yields config? stack name answer)
    (ha : answer = .ok plan) : motive plan := by
  induction h generalizing plan with
  | unknown hs hc => cases ha
  | loop hs => cases ha
  | noWorker hs hc hw => cases ha
  | @root stack name p hs hc hw hd => exact root p plan ha
  | @child stack name parent p answer hs hc hw hd _ ih =>
    cases answer with
    | error e => cases ha
    | ok parentPlan => exact child p parentPlan plan (ih rfl) ha

end Compiler

end BuildPlan
