import BuildPlan.Proofs.Compiler.Lineage
import BuildPlan.Proofs.Configuration.Acceptance
import BuildPlan.Proofs.Plan.Installation
import BuildPlan.Proofs.Project.Mimicry

/-!
# Names of the schedulers of a document

Names are put together from free texts without quotes, so two schedulers of a master may have the same
name.  They belong to two projects then, of which one mimics the other; in a document without such a pair
names identify schedulers.
-/

namespace BuildPlan

namespace Compiler

variable {c : Compiler} {r : Registry} {plan plan' : ProjectPlan}

/-- The schedulers of two projects neither of which mimics the other have different names. -/
theorem Settled.disjoint_scheduler_names (h : c.Settled r) (hp : plan ∈ r.plans)
    (hp' : plan' ∈ r.plans) (hne : plan.name ≠ plan'.name)
    (hm : ∀ p ∈ r.entries.map RegistryEntry.config, ∀ q ∈ r.entries.map RegistryEntry.config,
      ¬ p.Mimics q) :
    (plan.schedulers.map Scheduler.name).Disjoint (plan'.schedulers.map Scheduler.name) := by
  have hmem : ∀ {n : String} {p : ProjectConfig}, r.config? n = some p →
      p ∈ r.entries.map RegistryEntry.config :=
    fun hc => ((Registry.config?_eq_some_iff_mem h.consistent.keys_nodup).mp hc).1
  obtain ⟨p, parents, hc, hroot, hplan⟩ := h.exists_planWith (h.plan?_of_mem_plans hp)
  obtain ⟨q, parents', hc', hroot', hplan'⟩ := h.exists_planWith (h.plan?_of_mem_plans hp')
  rw [name_of_planWith hplan, name_of_planWith hplan'] at hne
  -- each name is told from its project, and if two are equal then one project mimics the other
  rw [schedulers_of_planWith hplan, schedulers_of_planWith hplan', ProjectConfig.schedulers_eq,
    ProjectConfig.schedulers_eq]
  intro name hn hn'
  simp only [List.map_map, List.mem_map, Function.comp_apply] at hn hn'
  obtain ⟨t, ht, rfl⟩ := hn
  obtain ⟨t', ht', heq⟩ := hn'
  rcases ProjectConfig.mimics_of_nameFor_eq hne hroot hroot' ht ht' heq.symm with hpq | hqp
  · exact hm p (hmem hc) q (hmem hc') hpq
  · exact hm q (hmem hc') p (hmem hc) hqp

theorem Settled.nodup_all_scheduler_names (h : c.Settled r)
    (hm : ∀ p ∈ r.entries.map RegistryEntry.config, ∀ q ∈ r.entries.map RegistryEntry.config,
      ¬ p.Mimics q) :
    ((r.plans.flatMap ProjectPlan.schedulers).map Scheduler.name).Nodup := by
  rw [List.map_flatMap]
  refine List.nodup_flatMap.mpr ⟨fun plan hp => h.nodup_scheduler_names hp, ?_⟩
  refine (List.pairwise_map.mp h.nodup_plans).imp_of_mem fun hp hp' hne => ?_
  exact h.disjoint_scheduler_names hp hp' hne hm

end Compiler

namespace Configuration

variable {credentials : CredentialStore} {text : String} {c : Configuration} {master : MasterPlan}

/-- **Names of schedulers.**  If no project of a document mimics another, then the schedulers that the
document compiles to have different names. -/
theorem schedulerNames_nodup (h : Configuration.parse credentials text = .ok c)
    (hm : ∀ p ∈ c.projects, ∀ q ∈ c.projects, ¬ p.Mimics q) (path : String)
    (hok : CommandLine.compileConfiguration path c = .ok master) :
    (master.schedulers.map Scheduler.name).Nodup := by
  have hnd := names_nodup_of_parse h
  rw [compileConfiguration_eq_ok_iff hnd] at hok
  obtain ⟨-, rfl⟩ := Compiler.compileAll_eq_ok_iff.mp hok
  have hset : c.compiler.Settled (.fresh c.projects) := Compiler.settled_fresh hnd
  obtain ⟨added, hres⟩ := c.compiler.exists_resolves_compileAll (.fresh c.projects)
  rw [MasterPlan.schedulers_ofPlans]
  refine hset.compileAll.nodup_all_scheduler_names ?_
  rwa [hres.configs_eq, Registry.configs_fresh]

/-- A project with a cron schedule, and a child of it that watches the same path. -/
theorem schedulerNames_parent_and_child :
    let text :=
      "master \x7b\n workers \"w\"\n\x7d\n" ++
        "project \"lib\" \x7b\n repository \"r\"\n workers \"w\"\n cron-scheduler \"0 4 * * *\"\n" ++
        " dependencies \"d\"\n\x7d\n" ++
        "project \"app\" \x7b\n repository \"r\"\n workers \"w\"\n dependent-scheduler \"lib\"\n" ++
        " dependencies \"d\"\n\x7d\n"
    ∃ c master, Configuration.parse (fun _ => none) text = .ok c ∧
      (∀ p ∈ c.projects, ∀ q ∈ c.projects, ¬ p.Mimics q) ∧
      CommandLine.compileConfiguration "ci.kdl" c = .ok master ∧
      master.schedulers.length = 8 ∧ (master.schedulers.map Scheduler.name).Nodup := by
  intro text
  obtain ⟨c, master, hc, hm, htold⟩ := exists_of_run (fun _ => none) text "ci.kdl"
    (fun c master => (decide (∀ p ∈ c.projects, ∀ q ∈ c.projects, ¬ p.Mimics q),
      master.schedulers.length)) (true, 8) (by decide +kernel)
  obtain ⟨hmimics, hlength⟩ := Prod.mk.inj htold
  have hnone : ∀ p ∈ c.projects, ∀ q ∈ c.projects, ¬ p.Mimics q := of_decide_eq_true hmimics
  exact ⟨c, master, hc, hnone, hm, hlength, schedulerNames_nodup hc hnone "ci.kdl" hm⟩

/-- Where a project mimics another, names may be the same: both projects watch a path, and the name of one
ends like the watch of the other. -/
theorem schedulerNames_repeated :
    let text :=
      "master \x7b\n workers \"w\"\n\x7d\n" ++
        "project \"x\" \x7b\n repository \"r\"\n workers \"w\"\n dependencies \"a' for b\"\n\x7d\n" ++
        "project \"b' for x\" \x7b\n repository \"r\"\n workers \"w\"\n dependencies \"a\"\n\x7d\n"
    ∃ c master, Configuration.parse (fun _ => none) text = .ok c ∧
      CommandLine.compileConfiguration "ci.kdl" c = .ok master ∧
      ¬ (master.schedulers.map Scheduler.name).Nodup := by
  intro text
  obtain ⟨c, master, hc, hm, hnodup⟩ := exists_of_run (fun _ => none) text "ci.kdl"
    (fun _ master => decide (master.schedulers.map Scheduler.name).Nodup) false (by decide +kernel)
  exact ⟨c, master, hc, hm, of_decide_eq_false hnodup⟩

end Configuration

end BuildPlan
