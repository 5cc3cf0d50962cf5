import BuildPlan.Proofs.Compiler.Plans

/-!
# Resolving projects one after the other

What a batch of resolutions leaves behind.  It succeeds just when each of its projects can be resolved by
itself, and then the plans in the registry are those that the projects come to.
-/

namespace BuildPlan

/-- What comes next, if what has been done has succeeded. -/
def Outcome.andThen {ε α β : Type} (o : Outcome ε α) (next : Registry → Outcome ε β) : Outcome ε β :=
  match o.result with
  | .ok _ => (next o.registry).after o.events
  | .error e => ⟨.error e, o.registry, o.events⟩

namespace Compiler

variable {c : Compiler} {r r' : Registry} {name : String} {names : List String} {plan : ProjectPlan}

/-! ### Steps of a batch -/

theorem resolveEach_cons (c : Compiler) (name : String) (names : List String) (r : Registry) :
    c.resolveEach (name :: names) r = (c.resolve r name).andThen (c.resolveEach names) := by
  rw [resolveEach, Outcome.andThen]
  cases (c.resolve r name).result <;> rfl

theorem resolveEach_cons_of_ok (h : (c.resolve r name).result = .ok plan) (names : List String) :
    c.resolveEach (name :: names) r =
      (c.resolveEach names (c.resolve r name).registry).after (c.resolve r name).events := by
  rw [resolveEach]
  simp only [h]

theorem resolveEach_cons_of_error {e : CompileError} (h : (c.resolve r name).result = .error e)
    (names : List String) :
    c.resolveEach (name :: names) r =
      ⟨.error e, (c.resolve r name).registry, (c.resolve r name).events⟩ := by
  rw [resolveEach]
  simp only [h]

/-- A batch that succeeds does so step by step. -/
theorem resolveEach_cons_eq_ok (h : (c.resolveEach (name :: names) r).result = .ok ()) :
    (∃ plan, (c.resolve r name).result = .ok plan) ∧
      (c.resolveEach names (c.resolve r name).registry).result = .ok () ∧
      (c.resolveEach (name :: names) r).registry =
        (c.resolveEach names (c.resolve r name).registry).registry := by
  cases ha : (c.resolve r name).result with
  | error e =>
    rw [resolveEach_cons_of_error ha] at h
    cases h
  | ok plan =>
    rw [resolveEach_cons_of_ok ha] at h ⊢
    exact ⟨⟨plan, rfl⟩, h, rfl⟩

theorem exists_resolves_resolveEach (c : Compiler) (names : List String) (r : Registry) :
    ∃ added, r.Resolves added (c.resolveEach names r).registry := by
  refine resolveEach_induction (motive := fun r' => ∃ added, r.Resolves added r')
    (fun r' name h => ?_) names r ⟨[], .refl r⟩
  obtain ⟨added, hr⟩ := h
  obtain ⟨more, hr'⟩ := c.exists_resolves r' name
  exact ⟨_, hr.trans hr'⟩

theorem Settled.resolveEach (h : c.Settled r) (names : List String) :
    c.Settled (c.resolveEach names r).registry :=
  resolveEach_induction (fun _ name h => h.resolve name) names r h

/-! ### The outcome of a batch -/

/-- What a project comes to is not changed by other resolutions. -/
theorem Settled.result_eq_of_resolves (h : c.Settled r) (h' : c.Settled r') (hs : r.stack = [])
    {added : List String} (hr : r.Resolves added r') (name : String) :
    (c.resolve r' name).result = (c.resolve r name).result :=
  h'.result_eq h hr.config_eq.symm (hr.stack_eq.trans hs) hs name

/-- A batch succeeds if and only if each of its projects comes to a plan by itself. -/
theorem Settled.resolveEach_eq_ok_iff (h : c.Settled r) (hs : r.stack = []) (names : List String) :
    (c.resolveEach names r).result = .ok () ↔
      ∀ n ∈ names, ∃ plan, (c.resolve r n).result = .ok plan := by
  induction names generalizing r with
  | nil => simp [Compiler.resolveEach]
  | cons name rest ih =>
    obtain ⟨added, hr⟩ := c.exists_resolves r name
    have h' := h.resolve name
    -- the first resolution changes no later answer, so the others may be asked where it started
    have hrest := ih h' (hr.stack_eq.trans hs)
    simp only [h.result_eq_of_resolves h' hs hr] at hrest
    rw [List.forall_mem_cons, ← hrest]
    constructor
    · intro hok
      obtain ⟨hname, hok', -⟩ := resolveEach_cons_eq_ok hok
      exact ⟨hname, hok'⟩
    · rintro ⟨⟨plan, hp⟩, hok⟩
      rw [resolveEach_cons_of_ok hp]
      exact hok

/-- After a batch that succeeds, all of its projects have been resolved. -/
theorem Settled.mem_resolvedNames_of_mem (h : c.Settled r)
    (hok : (c.resolveEach names r).result = .ok ()) {n : String} (hn : n ∈ names) :
    n ∈ (c.resolveEach names r).registry.resolvedNames := by
  induction names generalizing r with
  | nil => cases hn
  | cons name rest ih =>
    obtain ⟨⟨plan, hp⟩, hok', hreg⟩ := resolveEach_cons_eq_ok hok
    have h' := h.resolve name
    rw [hreg]
    rcases List.mem_cons.mp hn with rfl | hn
    · obtain ⟨added, hr⟩ := c.exists_resolves_resolveEach rest (c.resolve r n).registry
      rw [hr.resolvedNames_eq]
      refine List.mem_append_left _ ?_
      exact h'.mem_resolvedNames_iff.mpr ⟨plan, plan?_of_resolve hp⟩
    · exact ih h' hok' hn

/-! ### Compiling all projects -/

theorem compileAll_eq_ok_iff {master : MasterPlan} :
    (c.compileAll r).result = .ok master ↔
      (c.resolveEach r.names r).result = .ok () ∧
        master = .ofPlans (c.compileAll r).registry.plans := by
  rw [compileAll_registry]
  unfold compileAll
  dsimp only
  cases (c.resolveEach r.names r).result with
  | error e => simp
  | ok u => simp [eq_comm]

theorem exists_resolves_compileAll (c : Compiler) (r : Registry) :
    ∃ added, r.Resolves added (c.compileAll r).registry := by
  rw [compileAll_registry]
  exact c.exists_resolves_resolveEach r.names r

namespace Settled

theorem compileAll (h : c.Settled r) : c.Settled (c.compileAll r).registry := by
  rw [compileAll_registry]
  exact h.resolveEach r.names

/-- All projects compile if and only if each of them comes to a plan by itself. -/
theorem exists_compileAll_iff (h : c.Settled r) (hs : r.stack = []) :
    (∃ master, (c.compileAll r).result = .ok master) ↔
      ∀ n ∈ r.names, ∃ plan, (c.resolve r n).result = .ok plan := by
  rw [← h.resolveEach_eq_ok_iff hs]
  simp only [Compiler.compileAll_eq_ok_iff, exists_and_left, exists_eq, and_true]

/-- The plan that a project has when all projects have been compiled is the one that it comes to by
itself. -/
theorem result_of_plan? (h : c.Settled r) (hs : r.stack = [])
    (hp : (c.compileAll r).registry.plan? name = some plan) :
    (c.resolve r name).result = .ok plan := by
  obtain ⟨added, hr⟩ := c.exists_resolves_compileAll r
  obtain ⟨p, he⟩ := Registry.state?_eq_some_iff.mp (Registry.plan?_eq_some_iff.mp hp)
  rw [← h.result_eq_of_resolves h.compileAll hs hr, resolve_of_resolved c he]

theorem result_of_mem_plans (h : c.Settled r) (hs : r.stack = [])
    (hp : plan ∈ (c.compileAll r).registry.plans) : (c.resolve r plan.name).result = .ok plan :=
  h.result_of_plan? hs (h.compileAll.plan?_of_mem_plans hp)

/-- When all projects have been compiled, each of them has a plan. -/
theorem exists_plan?_compileAll (h : c.Settled r) {master : MasterPlan}
    (hm : (c.compileAll r).result = .ok master) (hn : name ∈ r.names) :
    ∃ plan, (c.compileAll r).registry.plan? name = some plan := by
  obtain ⟨hok, -⟩ := Compiler.compileAll_eq_ok_iff.mp hm
  refine h.compileAll.mem_resolvedNames_iff.mp ?_
  rw [compileAll_registry]
  exact h.mem_resolvedNames_of_mem hok hn

/-- When all projects have been compiled, there is a plan of every one, and no other. -/
theorem plans_perm (h : c.Settled r) {master : MasterPlan}
    (hm : (c.compileAll r).result = .ok master) :
    ((c.compileAll r).registry.plans.map ProjectPlan.name).Perm r.names := by
  obtain ⟨added, hr⟩ := c.exists_resolves_compileAll r
  rw [h.compileAll.map_name_plans]
  refine (List.perm_ext_iff_of_nodup h.compileAll.consistent.resolved_nodup
    h.consistent.names_nodup).mpr fun n => ⟨fun hn => ?_, fun hn => ?_⟩
  · obtain ⟨plan, hp⟩ := h.compileAll.mem_resolvedNames_iff.mp hn
    obtain ⟨p, parents, hc, -⟩ := h.compileAll.exists_planWith hp
    rw [hr.config_eq] at hc
    exact (h.consistent.mem_names_iff n).mpr (Registry.contains_of_config? hc)
  · exact h.compileAll.mem_resolvedNames_iff.mpr (h.exists_plan?_compileAll hm hn)

/-- When all projects have been compiled, the plans are those of the projects in some order. -/
theorem exists_projects (h : c.Settled r) {master : MasterPlan}
    (hm : (c.compileAll r).result = .ok master) :
    ∃ order : List ProjectConfig, order.Perm (r.entries.map RegistryEntry.config) ∧
      order.map ProjectConfig.name = (c.compileAll r).registry.resolvedNames ∧
      List.Forall₂ c.Plans order (c.compileAll r).registry.plans := by
  obtain ⟨added, hr⟩ := c.exists_resolves_compileAll r
  obtain ⟨order, hconfigs, hnames, hplans⟩ := h.compileAll.exists_order
  have hperm : (order.map ProjectConfig.name).Perm r.keys := by
    rw [hnames, ← h.compileAll.map_name_plans]
    exact (h.plans_perm hm).trans h.consistent.names_perm_keys
  have hnd := h.consistent.keys_nodup
  have hconfig : ∀ {p : ProjectConfig}, p ∈ r.entries.map RegistryEntry.config ↔
      r.config? p.name = some p := by
    simp [Registry.config?_eq_some_iff_mem hnd]
  have hmem : ∀ p ∈ order, r.config? p.name = some p := fun p hp => hr.config_eq ▸ hconfigs p hp
  refine ⟨order, ?_, hnames, hplans⟩
  rw [Registry.keys_eq_map_configs] at hperm hnd
  -- no name is repeated, hence no project, and the same members are enough
  refine (List.perm_ext_iff_of_nodup (hperm.nodup_iff.mpr hnd).of_map hnd.of_map).mpr fun p =>
    ⟨fun hp => hconfig.mpr (hmem p hp), fun hp => ?_⟩
  obtain ⟨q, hq, hname⟩ := List.mem_map.mp (hperm.mem_iff.mpr (List.mem_map_of_mem hp))
  have hc := hmem q hq
  rw [hname] at hc
  cases hc.symm.trans (hconfig.mp hp)
  exact hq

end Settled

end Compiler

end BuildPlan
