import BuildPlan.Proofs.Compiler.Batch
import BuildPlan.Proofs.Plan.Installation
import BuildPlan.Proofs.Resolution.Precedence

/-!
# The order of installation

A compilation resolves the projects as they are declared, each behind its ancestors, and what has been
resolved is not resolved again.  So at any time what has been resolved is what the projects asked for so
far lead to, and it stands in the order of first demands (`Registry.ResolvedFor`).
-/

namespace BuildPlan

open Relation

/-- The projects asked for, and what they lead to, have been resolved and nothing else, in the order of
first demands. -/
structure Registry.ResolvedFor (r : Registry) (asked declared : List String) : Prop where
  mem_iff : ∀ n, n ∈ r.resolvedNames ↔ ∃ a ∈ asked, ReflTransGen r.DependsOn a n
  sorted : r.resolvedNames.Pairwise fun x y =>
    firstDemand r.DependsOn declared x ≤ firstDemand r.DependsOn declared y

namespace Compiler

variable {c : Compiler} {r : Registry} {name : String} {asked rest : List String} {plan : ProjectPlan}

/-- A resolution resolves ancestors of the project, the project included. -/
theorem exists_resolves_ancestors (c : Compiler) (r : Registry) (name : String) :
    ∃ added, r.Resolves added (c.resolve r name).registry ∧
      ∀ n ∈ added, ReflTransGen r.DependsOn name n := by
  induction r, name using c.resolve_induction with
  | unknown r name he =>
    rw [resolve_of_none c he]
    exact ⟨[], .refl r, by simp⟩
  | resolved r name p plan he =>
    rw [resolve_of_resolved c he]
    exact ⟨[], .refl r, by simp⟩
  | underWay r name p he =>
    rw [resolve_of_inProgress c he]
    exact ⟨[], .refl r, by simp⟩
  | noWorker r name p he hw =>
    rw [resolve_of_noWorker he hw]
    exact ⟨[], .refl r, by simp⟩
  | root r name p he hw hd =>
    rw [resolve_of_root he hw hd]
    cases c.planWith p (.ok []) with
    | error e => exact ⟨[], (Registry.Resolves.refl _).leave_error he e, by simp⟩
    | ok plan =>
      refine ⟨[name], (Registry.Resolves.refl _).leave_ok he plan, fun n hn => ?_⟩
      rw [List.mem_singleton.mp hn]
  | child r name p parent he hw hd ih =>
    obtain ⟨added, hr, hreach⟩ := ih
    have hparent : r.DependsOn name parent := ⟨p, Registry.config?_of_get? he, hd⟩
    -- what the parent has added was reached from the parent, and the registry it ran in has the same edges
    have hadded : ∀ n ∈ added, ReflTransGen r.DependsOn name n := by
      intro n hn
      have := hreach n hn
      unfold Registry.DependsOn at this
      rw [Registry.config?_enter] at this
      exact .head hparent this
    rw [resolve_of_dependent he hw hd]
    dsimp only
    cases c.planWith p _ with
    | error e => exact ⟨added, hr.leave_error he e, hadded⟩
    | ok plan =>
      refine ⟨added ++ [name], hr.leave_ok he plan, fun n hn => ?_⟩
      rcases List.mem_append.mp hn with hn | hn
      · exact hadded n hn
      · rw [List.mem_singleton.mp hn]

/-- One more project has been asked for and resolved. -/
theorem Settled.resolvedFor_resolve (h : c.Settled r)
    (hr : r.ResolvedFor asked (asked ++ name :: rest))
    (hok : (c.resolve r name).result = .ok plan) :
    (c.resolve r name).registry.ResolvedFor (asked ++ [name]) (asked ++ name :: rest) := by
  obtain ⟨added, hadd, hreach⟩ := c.exists_resolves_ancestors r name
  have h' := h.resolve name
  have hname : name ∈ (c.resolve r name).registry.resolvedNames :=
    h'.mem_resolvedNames_iff.mpr ⟨plan, plan?_of_resolve hok⟩
  have hord := h'.ordered
  rw [hadd.dependsOn_eq] at hord
  have hnd := h'.consistent.resolved_nodup
  rw [hadd.resolvedNames_eq, List.nodup_append] at hnd
  -- what is new is demanded by the project, and by none that was asked for before it
  have hnew : ∀ n ∈ added,
      firstDemand r.DependsOn (asked ++ name :: rest) n = asked.length := by
    intro n hn
    refine firstDemand_eq (hreach n hn) fun a ha han => ?_
    exact hnd.2.2 n ((hr.mem_iff n).mpr ⟨a, ha, han⟩) n hn rfl
  -- what was there before is demanded by one of those asked for before
  have hold : ∀ n ∈ r.resolvedNames,
      firstDemand r.DependsOn (asked ++ name :: rest) n ≤ asked.length := by
    intro n hn
    obtain ⟨a, ha, han⟩ := (hr.mem_iff n).mp hn
    obtain ⟨i, hi, rfl⟩ := List.getElem_of_mem ha
    have hle : firstDemand r.DependsOn (asked ++ name :: rest) n ≤ i :=
      firstDemand_le (by rw [List.getElem?_append_left hi, List.getElem?_eq_getElem hi]) han
    omega
  constructor
  · -- the resolved projects are those reached from the ones asked for, this one included
    intro n
    rw [hadd.dependsOn_eq, hadd.resolvedNames_eq, List.mem_append, hr.mem_iff]
    constructor
    · rintro (⟨a, ha, han⟩ | hn)
      · exact ⟨a, List.mem_append_left _ ha, han⟩
      · exact ⟨name, by simp, hreach n hn⟩
    · rintro ⟨a, ha, han⟩
      rcases List.mem_append.mp ha with ha | ha
      · exact Or.inl ⟨a, ha, han⟩
      · rw [List.mem_singleton.mp ha] at han
        have hn := hord.mem_of_reflTransGen hname han
        rwa [hadd.resolvedNames_eq, List.mem_append, hr.mem_iff] at hn
  · -- the new ones share a first demand, and it is no earlier than any of the old ones
    rw [hadd.dependsOn_eq, hadd.resolvedNames_eq]
    refine List.pairwise_append.mpr ⟨hr.sorted, ?_, fun x hx y hy => ?_⟩
    · refine List.pairwise_of_forall_mem_list fun x hx y hy => ?_
      rw [hnew x hx, hnew y hy]
    · rw [hnew y hy]
      exact hold x hx

/-- A batch that succeeds has resolved what it was asked for, in the order of first demands. -/
theorem Settled.resolvedFor_resolveEach (h : c.Settled r)
    (hr : r.ResolvedFor asked (asked ++ rest))
    (hok : (c.resolveEach rest r).result = .ok ()) :
    (c.resolveEach rest r).registry.ResolvedFor (asked ++ rest) (asked ++ rest) := by
  induction rest generalizing r asked with
  | nil =>
    rw [List.append_nil] at hr ⊢
    exact hr
  | cons name rest ih =>
    obtain ⟨⟨plan, hp⟩, hok', hreg⟩ := resolveEach_cons_eq_ok hok
    have hr' := h.resolvedFor_resolve hr hp
    have happ : asked ++ name :: rest = asked ++ [name] ++ rest := by simp
    rw [happ] at hr' ⊢
    rw [hreg]
    exact ih (h.resolve name) hr' hok'

/-- The order in which the projects of a list are to be installed: each of them once; of two, the one
with the earlier first demand, or the ancestor of the other where the first demand is the same. -/
structure InstallationOrder (configs : List ProjectConfig) (order : List String) : Prop where
  perm : order.Perm (configs.map ProjectConfig.name)
  before_iff : ∀ x ∈ order, ∀ y ∈ order, x ≠ y →
    let m := firstDemand (DependsAmong configs) (configs.map ProjectConfig.name)
    (order.idxOf x < order.idxOf y ↔
      m x < m y ∨ m x = m y ∧ TransGen (DependsAmong configs) y x)
  parent_first : ∀ name parent, DependsAmong configs name parent →
    order.idxOf parent < order.idxOf name
  eq_of_declared : (∀ name parent, DependsAmong configs name parent →
      (configs.map ProjectConfig.name).idxOf parent <
        (configs.map ProjectConfig.name).idxOf name) →
    order = configs.map ProjectConfig.name

theorem installationOrder_of_sorted {configs : List ProjectConfig} {order : List String}
    (hn : (configs.map ProjectConfig.name).Nodup)
    (hp : order.Perm (configs.map ProjectConfig.name))
    (ho : DependenciesFirst (DependsAmong configs) order)
    (hs : order.Pairwise fun x y =>
      firstDemand (DependsAmong configs) (configs.map ProjectConfig.name) x ≤
        firstDemand (DependsAmong configs) (configs.map ProjectConfig.name) y) :
    InstallationOrder configs order := by
  have hd : order.Nodup := hp.nodup_iff.mpr hn
  have hu : Relator.RightUnique (DependsAmong configs) :=
    Registry.dependsOn_fresh hn ▸ (Registry.fresh configs).dependsOn_rightUnique
  refine ⟨hp, fun x hx y hy hne => ?_, fun name parent hdep => ?_, fun hb => ?_⟩
  · exact idxOf_lt_iff_firstDemand ho hd hs hu (fun n hn => hp.mem_iff.mp hn) hx hy hne
  · obtain ⟨p, hmem, rfl, -⟩ := id hdep
    exact ho.idxOf_lt hd (hp.mem_iff.mpr (List.mem_map_of_mem hmem)) (.single hdep)
  · exact eq_declared_of_firstDemand hn hb hp hs

/-- **The order of installation.**  If all projects of a list compile, then the master holds the
schedulers, the builders and the notifiers of their plans, one plan for each project and all three in the
order of installation; the plan of a project is what it comes to by itself. -/
theorem compileAll_in_order (c : Compiler) (configs : List ProjectConfig)
    (h : (configs.map ProjectConfig.name).Nodup) :
    ∃ r, Registry.ofConfigs configs = .ok r ∧
      ∀ master, (c.compileAll r).result = .ok master →
        let plans := (c.compileAll r).registry.plans
        InstallationOrder configs (plans.map ProjectPlan.name) ∧
        (∀ plan ∈ plans, (c.resolve r plan.name).result = .ok plan) ∧
        master.schedulers = plans.flatMap ProjectPlan.schedulers ∧
        master.builders = plans.flatMap ProjectPlan.builders ∧
        master.notifiers = plans.flatMap fun plan => plan.notifier.toList := by
  refine ⟨Registry.fresh configs, Registry.ofConfigs_of_nodup h, fun master hm => ?_⟩
  set r := Registry.fresh configs with hr
  have hnames : r.names = configs.map ProjectConfig.name := Registry.names_fresh configs
  have hset : c.Settled r := settled_fresh h
  have hperm := hset.plans_perm hm
  obtain ⟨hok, rfl⟩ := compileAll_eq_ok_iff.mp hm
  have hdep : (c.compileAll r).registry.DependsOn = DependsAmong configs := by
    obtain ⟨added, hres⟩ := c.exists_resolves_compileAll r
    rw [hres.dependsOn_eq, hr, Registry.dependsOn_fresh h]
  have hstart : r.ResolvedFor [] ([] ++ r.names) := ⟨fun n => by simp [hr, Registry.fresh], .nil⟩
  have hsorted := (hset.resolvedFor_resolveEach hstart hok).sorted
  have hordered := hset.compileAll.ordered
  rw [← compileAll_registry, hdep, List.nil_append, hnames, ← hset.compileAll.map_name_plans]
    at hsorted
  rw [hdep, ← hset.compileAll.map_name_plans] at hordered
  rw [hnames] at hperm
  exact ⟨installationOrder_of_sorted h hperm hordered hsorted,
    fun plan hp => hset.result_of_mem_plans rfl hp, MasterPlan.schedulers_ofPlans _,
    MasterPlan.builders_ofPlans _, MasterPlan.notifiers_ofPlans _⟩

/-- Two children are declared before their parent, and a project that has to do with neither of them
between the two: the parent is installed with the first child. -/
theorem compileAll_children_first :
    let c := ofWorkers (.ofList ["w"])
    let configs := [ProjectConfig.chained "app" (some "lib"), ProjectConfig.chained "top" none,
      ProjectConfig.chained "tool" (some "lib"), ProjectConfig.chained "lib" none]
    let o := c.compileAll (Registry.fresh configs)
    (configs.map ProjectConfig.name).Nodup ∧
    InstallationOrder configs ["lib", "app", "top", "tool"] ∧
    ∃ master, o.result = .ok master ∧
      master.schedulers = o.registry.plans.flatMap ProjectPlan.schedulers := by
  intro c configs o
  have hnd : (configs.map ProjectConfig.name).Nodup := by decide
  obtain ⟨r, hr, hall⟩ := c.compileAll_in_order configs hnd
  cases hr.symm.trans (Registry.ofConfigs_of_nodup hnd)
  have hlist : o.registry.plans.map ProjectPlan.name = ["lib", "app", "top", "tool"] := by
    decide +kernel
  have hok : o.result.isOk := by decide +kernel
  cases hm : o.result with
  | error e =>
    rw [hm] at hok
    cases hok
  | ok master =>
    obtain ⟨horder, -, hschedulers, -⟩ := hall master hm
    exact ⟨hnd, hlist ▸ horder, master, rfl, hschedulers⟩

end Compiler

end BuildPlan
