import BuildPlan.Proofs.Compiler.Calls
import Mathlib.Logic.Relator

/-!
# Parents and ancestors

The dependence of projects on their parents, read off a list of configurations.  A project has at most
one parent, and a registry in which the projects are registered sees the same dependence.
-/

namespace BuildPlan

/-- Among the given projects, the one of the first name waits for the schedulers of the other. -/
def DependsAmong (configs : List ProjectConfig) (name parent : String) : Prop :=
  ∃ p ∈ configs, p.name = name ∧ p.schedule.dependent = some parent

namespace Registry

variable {r : Registry} {p : ProjectConfig} {name parent : String}

theorem dependsOn_rightUnique (r : Registry) : Relator.RightUnique r.DependsOn := by
  rintro name parent parent' ⟨p, hp, hd⟩ ⟨q, hq, hd'⟩
  cases hp.symm.trans hq
  exact Option.some.inj (hd.symm.trans hd')

/-- With distinct names, the registry sees the dependence among its configurations. -/
theorem dependsOn_eq (hr : r.keys.Nodup) :
    r.DependsOn = DependsAmong (r.entries.map RegistryEntry.config) := by
  funext name parent
  simp only [DependsOn, DependsAmong, config?_eq_some_iff_mem hr, and_assoc]

theorem dependsOn_fresh {configs : List ProjectConfig}
    (h : (configs.map ProjectConfig.name).Nodup) :
    (fresh configs).DependsOn = DependsAmong configs := by
  rw [dependsOn_eq (by rwa [keys_fresh]), configs_fresh]

theorem Resolves.dependsOn_eq {r' : Registry} {added : List String} (h : r.Resolves added r') :
    r'.DependsOn = r.DependsOn := by
  unfold DependsOn
  rw [h.config_eq]

theorem contains_of_config? (h : r.config? name = some p) : r.contains name := by
  rw [← config?_isSome, h]
  rfl

theorem exists_config?_of_contains (h : r.contains name) : ∃ p, r.config? name = some p := by
  rw [← config?_isSome] at h
  exact Option.isSome_iff_exists.mp h

theorem name_of_config? (h : r.config? name = some p) : p.name = name := by
  obtain ⟨s, he⟩ := config?_eq_some_iff.mp h
  exact name_of_get? he

/-! ### Walks along parents -/

/-- A walk from a project without a parent stays where it is. -/
theorem walk_eq_nil_of_root (hc : r.config? name = some p) (hd : p.schedule.dependent = none)
    {walk : List String} (hw : (name :: walk).IsChain r.DependsOn) : walk = [] := by
  cases walk with
  | nil => rfl
  | cons m rest =>
    obtain ⟨⟨q, hq, hm⟩, -⟩ := List.isChain_cons_cons.mp hw
    cases hc.symm.trans hq
    rw [hd] at hm
    cases hm

/-- A walk from a project with a parent stays where it is, or goes on from the parent. -/
theorem walk_cases_of_dependent (hc : r.config? name = some p)
    (hd : p.schedule.dependent = some parent) {walk : List String}
    (hw : (name :: walk).IsChain r.DependsOn) :
    walk = [] ∨ ∃ rest, walk = parent :: rest ∧ (parent :: rest).IsChain r.DependsOn := by
  cases walk with
  | nil => exact Or.inl rfl
  | cons m rest =>
    obtain ⟨hm, hrest⟩ := List.isChain_cons_cons.mp hw
    cases r.dependsOn_rightUnique hm ⟨p, hc, hd⟩
    exact Or.inr ⟨rest, rfl, hrest⟩

end Registry

end BuildPlan
