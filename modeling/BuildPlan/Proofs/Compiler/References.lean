import BuildPlan.Proofs.Compiler.Batch
import BuildPlan.Proofs.Notification.Addresses
import BuildPlan.Proofs.Plan.Installation
import BuildPlan.Proofs.Plan.Ownership
import BuildPlan.Proofs.Project.Schedulers

/-!
# References on a master

The pieces of a master refer to each other by name: schedulers and notifiers to builders, dependent
schedulers to those they wait for.  Each of these names is made up from a configuration or taken from a
plan of the parent that may have been in the registry for long; on a master that has been compiled each is
the name of a piece that is there.
-/

namespace BuildPlan

variable {plan : ProjectPlan} {plans before after : List ProjectPlan}

/-- The names of the builders that belong to a project, in the order in which the plans hold them. -/
def builderNamesOf (project : String) (plans : List ProjectPlan) : List BuilderName :=
  ((owned ProjectPlan.builders plans).filter fun piece => piece.1 == project).map
    fun piece => piece.2.name

/-- The names by which the pieces of plans refer to each other are names of pieces that are there.  The
relation leads from projects to their parents. -/
structure ReferencesHold (waitsFor : String → String → Prop) (plans : List ProjectPlan) : Prop where
  upstream_before : ∀ (i : Nat) project (s : Scheduler) upstream,
    (owned ProjectPlan.schedulers plans)[i]? = some (project, s) → s.trigger = .dependent upstream →
      ∃ j < i, ∃ parent, ∃ s' : Scheduler,
        (owned ProjectPlan.schedulers plans)[j]? = some (parent, s') ∧ s'.name = upstream ∧
          waitsFor project parent
  scheduler_builders : ∀ project (s : Scheduler),
    (project, s) ∈ owned ProjectPlan.schedulers plans → s.builderNames = builderNamesOf project plans
  notifier_builders : ∀ project (notifier : MailNotifier),
    (project, notifier) ∈ owned (fun plan => plan.notifier.toList) plans →
      notifier.builderNames = builderNamesOf project plans

theorem builderNamesOf_of_mem (h : (plans.map ProjectPlan.name).Nodup) (hp : plan ∈ plans) :
    builderNamesOf plan.name plans = plan.builderNames := by
  unfold builderNamesOf
  rw [filter_owned h hp, List.map_map]
  rfl

namespace Compiler

variable {c : Compiler} {r : Registry} {s : Scheduler} {notifier : MailNotifier} {upstream : String}

namespace Settled

/-- The schedulers of a plan start the plan's builders. -/
theorem builderNames_of_scheduler (h : c.Settled r) (hp : plan ∈ r.plans)
    (hs : s ∈ plan.schedulers) : s.builderNames = plan.builderNames := by
  obtain ⟨p, parents, -, -, hplan⟩ := h.exists_planWith (h.plan?_of_mem_plans hp)
  rw [schedulers_of_planWith hplan] at hs
  rw [ProjectConfig.builderNames_of_mem_schedulers hs, builderNames_of_planWith hplan]

/-- The notifier of a plan tells about the plan's builders. -/
theorem builderNames_of_notifier (h : c.Settled r) (hc : c.notifiers = smtpService)
    (hp : plan ∈ r.plans) (hn : notifier ∈ plan.notifier.toList) :
    notifier.builderNames = plan.builderNames := by
  obtain ⟨p, parents, -, -, hplan⟩ := h.exists_planWith (h.plan?_of_mem_plans hp)
  obtain ⟨request, hrequest, hmade⟩ :=
    exists_request_of_planWith hplan (Option.mem_toList.mp hn)
  rw [hc] at hmade
  obtain ⟨-, -, rfl⟩ := smtpService_eq_ok_iff.mp hmade
  exact hrequest

/-- A dependent scheduler of a plan waits for a scheduler in the plan of the parent, which stands in front
of it. -/
theorem exists_upstream_before (h : c.Settled r) (hl : r.plans = before ++ plan :: after)
    (hs : s ∈ plan.schedulers) (ht : s.trigger = .dependent upstream) :
    ∃ parentPlan ∈ before, r.DependsOn plan.name parentPlan.name ∧
      ∃ s' ∈ parentPlan.schedulers, s'.name = upstream := by
  have hp : r.plan? plan.name = some plan := h.plan?_of_mem_plans (by simp [hl])
  obtain ⟨p, hc, -, ⟨-, hplan⟩ | ⟨parent, parentPlan, hd, hparent, hplan⟩⟩ := h.plan_cases hp
  · rw [schedulers_of_planWith hplan] at hs
    obtain ⟨s', hs', -⟩ := ProjectConfig.exists_parent_of_dependent hs ht
    cases hs'
  · rw [schedulers_of_planWith hplan] at hs
    have hdep : r.DependsOn plan.name parent := ⟨p, hc, hd⟩
    -- the plan of the parent stands in front, and it is the one the schedulers were made from
    obtain ⟨parentPlan', hbefore, hparent'⟩ := h.exists_parent_before hl hdep
    cases hparent.symm.trans hparent'
    refine ⟨parentPlan, hbefore, ?_, ProjectConfig.exists_parent_of_dependent hs ht⟩
    rwa [h.name_of_plan? hparent]

end Settled

theorem Settled.referencesHold (h : c.Settled r) (hc : c.notifiers = smtpService) :
    ReferencesHold r.DependsOn r.plans := by
  have hnd := h.nodup_plans
  constructor
  · intro i project s upstream hi ht
    obtain ⟨before, plan, after, hl, rfl, hs, hle⟩ := exists_of_getElem?_owned hi
    obtain ⟨parentPlan, hbefore, hd, s', hs', hname⟩ := h.exists_upstream_before hl hs ht
    obtain ⟨j, hj, he⟩ := exists_getElem?_owned hbefore hs' (plan :: after)
    rw [← hl] at he
    exact ⟨j, by omega, parentPlan.name, s', he, hname, hd⟩
  · intro project s hs
    obtain ⟨plan, hp, rfl, hmem⟩ := mem_owned_iff.mp hs
    rw [builderNamesOf_of_mem hnd hp]
    exact h.builderNames_of_scheduler hp hmem
  · intro project notifier hn
    obtain ⟨plan, hp, rfl, hmem⟩ := mem_owned_iff.mp hn
    rw [builderNamesOf_of_mem hnd hp]
    exact h.builderNames_of_notifier hc hp hmem

/-- **References on a master.**  When all projects of a registry compile, after whatever calls, then each
project has its pieces on the master once, as it comes to them by itself.  A dependent scheduler waits for
one that stands further in front and belongs to the parent of its project.  The schedulers and the notifier
of a project name the builders of the project on the master, in their order. -/
theorem compileAll_references (c : Compiler) (hc : c.notifiers = smtpService) (cs : List Call)
    {master : MasterPlan} (hm : (c.compileAll (c.calls cs)).result = .ok master) :
    let r := c.calls cs
    let plans := (c.compileAll r).registry.plans
    (plans.map ProjectPlan.name).Perm r.names ∧
    (∀ plan ∈ plans, (c.resolve r plan.name).result = .ok plan) ∧
    master.schedulers = (owned ProjectPlan.schedulers plans).map Prod.snd ∧
    master.builders = (owned ProjectPlan.builders plans).map Prod.snd ∧
    master.notifiers = (owned (fun plan => plan.notifier.toList) plans).map Prod.snd ∧
    ReferencesHold r.DependsOn plans := by
  intro r plans
  have hset : c.Settled r := c.settled_calls cs
  obtain ⟨added, hres⟩ := c.exists_resolves_compileAll r
  have hperm := hset.plans_perm hm
  obtain ⟨-, rfl⟩ := compileAll_eq_ok_iff.mp hm
  rw [map_snd_owned, map_snd_owned, map_snd_owned]
  refine ⟨hperm, fun plan hp => hset.result_of_mem_plans (c.stack_calls cs) hp,
    MasterPlan.schedulers_ofPlans _, MasterPlan.builders_ofPlans _, MasterPlan.notifiers_ofPlans _,
    ?_⟩
  rw [← hres.dependsOn_eq]
  exact hset.compileAll.referencesHold hc

/-- A project with two builders and a notifier is compiled in vain, then its parent is registered and both
compile. -/
theorem compileAll_parent_late :
    let c := ofWorkers (.ofList ["w"])
    let app := { ProjectConfig.chained "app" (some "lib") with
      workers := ["w", "v"], emailSender := "ci@h", emailRecipients := ["dev@h"] }
    let cs := [.register app, .compileAll, .register (.chained "lib" none)]
    let plans := (c.compileAll (c.calls cs)).registry.plans
    (c.compileAll (c.calls [.register app])).result.isOk = false ∧
    (∃ master, (c.compileAll (c.calls cs)).result = .ok master ∧ master.notifiers.length = 1) ∧
    builderNamesOf "app" plans = [⟨"app w"⟩, ⟨"app v"⟩] ∧
    ReferencesHold (c.calls cs).DependsOn plans := by
  intro c app cs plans
  have hearly : (c.compileAll (c.calls [.register app])).result.isOk = false := by decide +kernel
  have hnotifiers : (c.compileAll (c.calls cs)).result.toOption.map (·.notifiers.length) = some 1 := by
    decide +kernel
  have hbuilders : builderNamesOf "app" plans = [⟨"app w"⟩, ⟨"app v"⟩] := by decide +kernel
  cases hm : (c.compileAll (c.calls cs)).result with
  | error e =>
    rw [hm] at hnotifiers
    cases hnotifiers
  | ok master =>
    rw [hm] at hnotifiers
    obtain ⟨-, -, -, -, -, hrefs⟩ := c.compileAll_references rfl cs hm
    exact ⟨hearly, ⟨master, rfl, Option.some.inj hnotifiers⟩, hbuilders, hrefs⟩

end Compiler

end BuildPlan
