import BuildPlan.Proofs.Compiler.Acceptance
import BuildPlan.Proofs.Plan.Installation
import BuildPlan.Proofs.Registry.Extension

/-!
# Compiling further projects

Projects that compile have their parents among themselves.  So none of them asks for a project that is
declared behind them, and with such projects in the registry they are resolved as they are without:
first, in the same order and with the same plans (`compileAll_extends`).
-/

namespace BuildPlan

/-- The outcome with further projects in the registry. -/
def Outcome.extend {ε α : Type} (o : Outcome ε α) (more : List ProjectConfig) : Outcome ε α :=
  { o with registry := o.registry.extend more }

/-- Two steps with further projects: those that are left at the end are those of the second step, or those
of the first if it fails. -/
theorem Outcome.andThen_extend {ε α β : Type} {o : Outcome ε α} {next next' : Registry → Outcome ε β}
    {more unreached : List ProjectConfig}
    (h : next' (o.registry.extend more) = (next o.registry).extend unreached) :
    (o.extend more).andThen next' =
      (o.andThen next).extend (if o.result.isOk then unreached else more) := by
  obtain ⟨result, r, events⟩ := o
  cases result with
  | error e => rfl
  | ok a =>
    show (next' (r.extend more)).after events = ((next r).extend unreached).after events
    rw [h]

namespace Compiler

variable {c : Compiler} {r : Registry} {name : String} {names : List String}
  {configs more : List ProjectConfig}

/-! ### Resolutions that do not lead to further projects -/

/-- A resolution that does not lead to the further projects is the same with them and without. -/
theorem resolve_extend (c : Compiler) (r : Registry) (name : String)
    (hd : ∀ n m, r.DependsOn n m → m ∉ more.map ProjectConfig.name)
    (hn : name ∉ more.map ProjectConfig.name) :
    c.resolve (r.extend more) name = (c.resolve r name).extend more := by
  induction r, name using c.resolve_induction with
  | unknown r name he =>
    have he' := (Registry.get?_extend_of_notMem hn).trans he
    rw [resolve_of_none c he, resolve_of_none c he']
    rfl
  | resolved r name p plan he =>
    rw [resolve_of_resolved c he, resolve_of_resolved c (Registry.get?_extend_of_some he)]
    rfl
  | underWay r name p he =>
    rw [resolve_of_inProgress c he, resolve_of_inProgress c (Registry.get?_extend_of_some he)]
    rfl
  | noWorker r name p he hw =>
    rw [resolve_of_noWorker he hw, resolve_of_noWorker (Registry.get?_extend_of_some he) hw]
    rfl
  | root r name p he hw hp =>
    rw [resolve_of_root he hw hp, resolve_of_root (Registry.get?_extend_of_some he) hw hp,
      Registry.enter_extend r hn, Registry.leave_extend _ hn]
    rfl
  | child r name p parent he hw hp ih =>
    -- edges do not lead into what is added, so the parent is none of it
    have hparent : parent ∉ more.map ProjectConfig.name :=
      hd name parent ⟨p, Registry.config?_of_get? he, hp⟩
    have hent : ∀ n m, (r.enter name).DependsOn n m → m ∉ more.map ProjectConfig.name := by
      unfold Registry.DependsOn
      rwa [Registry.config?_enter]
    rw [resolve_of_dependent he hw hp, resolve_of_dependent (Registry.get?_extend_of_some he) hw hp,
      Registry.enter_extend r hn, ih hent hparent]
    dsimp only [Outcome.extend]
    rw [Registry.leave_extend _ hn]

theorem resolveEach_extend (c : Compiler) (names : List String) (r : Registry)
    (hd : ∀ n m, r.DependsOn n m → m ∉ more.map ProjectConfig.name)
    (hn : ∀ n ∈ names, n ∉ more.map ProjectConfig.name) :
    c.resolveEach names (r.extend more) = (c.resolveEach names r).extend more := by
  induction names generalizing r with
  | nil => rfl
  | cons name rest ih =>
    obtain ⟨hname, hrest⟩ := List.forall_mem_cons.mp hn
    obtain ⟨added, hr⟩ := c.exists_resolves r name
    have hnext := ih (c.resolve r name).registry (by rwa [hr.dependsOn_eq]) hrest
    rw [resolveEach_cons, resolveEach_cons, c.resolve_extend r name hd hname,
      Outcome.andThen_extend hnext, ite_self]

/-- A batch that succeeds is the first part of a longer one. -/
theorem resolveEach_append_of_ok (h : (c.resolveEach names r).result = .ok ()) (rest : List String) :
    c.resolveEach (names ++ rest) r =
      (c.resolveEach rest (c.resolveEach names r).registry).after (c.resolveEach names r).events := by
  induction names generalizing r with
  | nil => rfl
  | cons name names ih =>
    obtain ⟨⟨plan, hp⟩, hok, -⟩ := resolveEach_cons_eq_ok h
    rw [List.cons_append, resolveEach_cons_of_ok hp, resolveEach_cons_of_ok hp, ih hok]
    simp [Outcome.after]

/-! ### Projects that compile -/

namespace Settled

/-- The parents of projects that compile are among them. -/
theorem mem_names_of_dependsOn (h : c.Settled r) (hs : r.stack = []) {master : MasterPlan}
    (hm : (c.compileAll r).result = .ok master) {n m : String} (hd : r.DependsOn n m) :
    m ∈ r.names := by
  obtain ⟨p, hc, hp⟩ := hd
  have hmem := (Registry.config?_eq_some_iff_mem h.consistent.keys_nodup).mp hc
  exact (h.consistent.mem_names_iff m).mpr
    (((h.compileAll_eq_ok_iff hs).mp ⟨master, hm⟩ p hmem.1).parent_mem m hp)

/-- With further projects, a compilation begins as it does without them: what it has resolved at the end
stands behind what is resolved without them. -/
theorem exists_resolves_compileAll_extend (h : c.Settled r) (hs : r.stack = [])
    {master : MasterPlan} (hm : (c.compileAll r).result = .ok master)
    (hn : ∀ n ∈ r.names, n ∉ more.map ProjectConfig.name) :
    ∃ added, ((c.compileAll r).registry.extend more).Resolves added
      (c.compileAll (r.extend more)).registry := by
  have hd : ∀ n m, r.DependsOn n m → m ∉ more.map ProjectConfig.name :=
    fun n m hnm => hn m (h.mem_names_of_dependsOn hs hm hnm)
  obtain ⟨hok, -⟩ := Compiler.compileAll_eq_ok_iff.mp hm
  have hext := c.resolveEach_extend r.names r hd hn
  -- the batch for the old names runs as before, then comes what was added
  have hok' : (c.resolveEach r.names (r.extend more)).result = .ok () := by rw [hext]; exact hok
  rw [compileAll_registry, compileAll_registry, Registry.names_extend,
    resolveEach_append_of_ok hok', hext]
  exact c.exists_resolves_resolveEach _ _

end Settled

/-- **Further projects.**  If projects compile, then a compilation of them with further projects behind
them begins with what they compile to: if it succeeds, the schedulers, the builders and the notifiers come
first among those of all projects, and whether it succeeds or fails, the projects have been resolved with
the plans that they have without the further ones. -/
theorem compileAll_extends (c : Compiler) {r : Registry} {master : MasterPlan}
    (h : Registry.ofConfigs configs = .ok r) (hm : (c.compileAll r).result = .ok master)
    (more : List ProjectConfig) :
    (((configs ++ more).map ProjectConfig.name).Nodup →
      ∃ r', Registry.ofConfigs (configs ++ more) = .ok r') ∧
    ∀ r', Registry.ofConfigs (configs ++ more) = .ok r' →
      (∀ master', (c.compileAll r').result = .ok master' →
        master.schedulers <+: master'.schedulers ∧ master.builders <+: master'.builders ∧
          master.notifiers <+: master'.notifiers) ∧
      ∀ p ∈ configs, ∃ plan,
        (c.compileAll r).registry.state? p.name = some (.resolved plan) ∧
          (c.compileAll r').registry.state? p.name = some (.resolved plan) := by
  obtain ⟨hnd, rfl⟩ := Registry.ofConfigs_eq_ok_iff.mp h
  refine ⟨fun hall => ⟨_, Registry.ofConfigs_of_nodup hall⟩, fun r' h' => ?_⟩
  obtain ⟨hnd', rfl⟩ := Registry.ofConfigs_eq_ok_iff.mp h'
  have hset : c.Settled (.fresh configs) := settled_fresh hnd
  have hdisjoint : ∀ n ∈ (Registry.fresh configs).names, n ∉ more.map ProjectConfig.name := by
    intro n hn hmore
    rw [Registry.names_fresh] at hn
    rw [List.map_append, List.nodup_append] at hnd'
    exact hnd'.2.2 n hn n hmore rfl
  obtain ⟨added, hres⟩ := hset.exists_resolves_compileAll_extend rfl hm hdisjoint
  rw [← Registry.fresh_append] at hres
  have hkeeps : (c.compileAll (.fresh configs)).registry.Keeps
      (c.compileAll (.fresh (configs ++ more))).registry :=
    (Registry.keeps_extend _ more).trans hres.keeps
  constructor
  · intro master' hm'
    obtain ⟨-, rfl⟩ := compileAll_eq_ok_iff.mp hm
    obtain ⟨-, rfl⟩ := compileAll_eq_ok_iff.mp hm'
    have hplans := hkeeps.plans_prefix hset.compileAll.consistent ⟨added, hres.resolvedNames_eq.symm⟩
    exact MasterPlan.ofPlans_prefix hplans
  · intro p hp
    have hn : p.name ∈ (Registry.fresh configs).names := by
      rw [Registry.names_fresh]
      exact List.mem_map_of_mem hp
    obtain ⟨plan, hplan⟩ := hset.exists_plan?_compileAll hm hn
    exact ⟨plan, Registry.plan?_eq_some_iff.mp hplan,
      Registry.plan?_eq_some_iff.mp (hkeeps.plan?_eq hplan)⟩

/-- Behind a child and its parent, two further projects that lead to the child compile; a project whose
parent is missing fails, and the first two have been resolved. -/
theorem compileAll_extends_both_ways :
    let c := ofWorkers (.ofList ["w"])
    let configs := [ProjectConfig.chained "app" (some "lib"), ProjectConfig.chained "lib" none]
    let more := [ProjectConfig.chained "tool" (some "top"), ProjectConfig.chained "top" (some "app")]
    let wrong := [ProjectConfig.chained "tool" (some "app"), ProjectConfig.chained "top" (some "gui")]
    ∃ r master, Registry.ofConfigs configs = .ok r ∧ (c.compileAll r).result = .ok master ∧
      (∃ r' master', Registry.ofConfigs (configs ++ more) = .ok r' ∧
        (c.compileAll r').result = .ok master' ∧ master.builders <+: master'.builders ∧
        master.builders.length = 2 ∧ master'.builders.length = 4) ∧
      ∃ r', Registry.ofConfigs (configs ++ wrong) = .ok r' ∧
        (c.compileAll r').result = .error (.unknownDependency "gui") ∧
        ∃ plan, (c.compileAll r).registry.state? "app" = some (.resolved plan) ∧
          (c.compileAll r').registry.state? "app" = some (.resolved plan) := by
  intro c configs more wrong
  have hr : Registry.ofConfigs configs = .ok (.fresh configs) := by decide
  have hm := compileAll_eq_ok_iff (c := c) (r := .fresh configs).mpr ⟨by decide +kernel, rfl⟩
  have hm' := compileAll_eq_ok_iff (c := c) (r := .fresh (configs ++ more)).mpr
    ⟨by decide +kernel, rfl⟩
  obtain ⟨hreg, hmore⟩ := c.compileAll_extends hr hm more
  obtain ⟨hreg', hwrong⟩ := c.compileAll_extends hr hm wrong
  obtain ⟨r', hr'⟩ := hreg (by decide)
  obtain ⟨r'', hr''⟩ := hreg' (by decide)
  cases (Registry.ofConfigs_eq_ok_iff.mp hr').2
  cases (Registry.ofConfigs_eq_ok_iff.mp hr'').2
  obtain ⟨-, hbuilders, -⟩ := (hmore _ hr').1 _ hm'
  exact ⟨_, _, hr, hm, ⟨_, _, hr', hm', hbuilders, by decide +kernel, by decide +kernel⟩,
    _, hr'', by decide +kernel, (hwrong _ hr'').2 configs[0] (by decide)⟩

end Compiler

end BuildPlan
