import BuildPlan.Proofs.Compiler.Batch
import BuildPlan.Proofs.Project.Locator

/-!
# Projects that compile

What a project needs in order to compile is said of the project and of the way along its ancestors
(`Compiler.Accepts`).  A project that comes to a plan has it, and if all registered projects have it, then
all of them come to plans; so a registry compiles just when all its projects are accepted.
-/

namespace BuildPlan

namespace Compiler

/-- The registered project has a known worker, a registered parent if any, no way along parents that
comes back, and no malformed locator. -/
structure Accepts (c : Compiler) (r : Registry) (p : ProjectConfig) : Prop where
  knowsWorker : c.knowsWorkerOf p
  parent_mem : ∀ parent, p.schedule.dependent = some parent → r.contains parent
  noReturn : ∀ walk, (p.name :: walk).IsChain r.DependsOn → (p.name :: walk).Nodup
  locator : ¬ p.LocatorMalformed

variable {c : Compiler} {r : Registry} {p : ProjectConfig} {stack : List String}
  {name : String} {plan : ProjectPlan} {answer : Except CompileError ProjectPlan}

theorem not_malformed_of_planWith {parents : List Scheduler}
    (h : c.planWith p (.ok parents) = .ok plan) : ¬ p.LocatorMalformed := by
  intro hm
  rw [c.planWith_of_malformed hm] at h
  cases h

/-! ### What comes to a plan is accepted -/

/-- A walk from a project that comes to a plan passes no project twice, and none that is under way. -/
theorem Yields.nodup_walk (h : c.Yields r.config? stack name answer) (ha : answer = .ok plan)
    {walk : List String} (hw : (name :: walk).IsChain r.DependsOn) :
    (name :: walk).Nodup ∧ ∀ n ∈ name :: walk, n ∉ stack := by
  induction h generalizing plan walk with
  | unknown hs hc => cases ha
  | loop hs => cases ha
  | noWorker hs hc hk => cases ha
  | root hs hc hk hd =>
    rw [Registry.walk_eq_nil_of_root hc hd hw]
    exact ⟨List.nodup_singleton _, by simpa using hs⟩
  | @child stack name parent p answer hs hc hk hd _ ih =>
    cases answer with
    | error e => cases ha
    | ok parentPlan =>
      -- a walk from the project is the project alone, or goes on along a walk from its parent
      rcases Registry.walk_cases_of_dependent hc hd hw with rfl | ⟨rest, rfl, hrest⟩
      · exact ⟨List.nodup_singleton _, by simpa using hs⟩
      · obtain ⟨hnd, hout⟩ := ih rfl hrest
        -- the parent was assembled below the project, so its walks avoid it
        have hname : name ∉ parent :: rest := fun hm => hout name hm (by simp)
        refine ⟨List.nodup_cons.mpr ⟨hname, hnd⟩, fun n hn hmem => ?_⟩
        rcases List.mem_cons.mp hn with rfl | hn
        · exact hs hmem
        · exact hout n hn (List.mem_append_left _ hmem)

/-- The parent of a project that comes to a plan is registered. -/
theorem Yields.contains (h : c.Yields r.config? stack name (.ok plan)) : r.contains name := by
  generalize ha : Except.ok plan = answer at h
  cases h with
  | unknown hs hc => cases ha
  | loop hs => cases ha
  | noWorker hs hc hk => cases ha
  | root hs hc hk hd => exact Registry.contains_of_config? hc
  | child hs hc hk hd h => exact Registry.contains_of_config? hc

theorem Yields.accepts (h : c.Yields r.config? stack name (.ok plan))
    (hc : r.config? name = some p) : c.Accepts r p := by
  have hname : p.name = name := Registry.name_of_config? hc
  have hwalk : ∀ walk, (p.name :: walk).IsChain r.DependsOn → (p.name :: walk).Nodup := by
    intro walk hw
    rw [hname] at hw ⊢
    exact (h.nodup_walk rfl hw).1
  -- the answer must be a variable for the derivation to be taken apart
  generalize ha : Except.ok plan = answer at h
  cases h with
  | unknown hs hc' => cases ha
  | loop hs => cases ha
  | noWorker hs hc' hk => cases ha
  | root hs hc' hk hd =>
    cases hc.symm.trans hc'
    refine ⟨hk, fun parent hp => ?_, hwalk, not_malformed_of_planWith ha.symm⟩
    rw [hd] at hp
    cases hp
  | @child _ _ _ _ answer hs hc' hk hd h =>
    cases hc.symm.trans hc'
    cases answer with
    | error e => cases ha
    | ok parentPlan =>
      refine ⟨hk, fun parent hp => ?_, hwalk, not_malformed_of_planWith ha.symm⟩
      cases hd.symm.trans hp
      exact h.contains

/-! ### What is accepted comes to a plan -/

/-- If all registered projects are accepted, then a project that is reached from those under way comes to
a plan. -/
theorem Yields.exists_ok (hall : ∀ n p, r.config? n = some p → c.Accepts r p)
    (h : c.Yields r.config? stack name answer) (hn : r.contains name)
    (hchain : (stack ++ [name]).IsChain r.DependsOn) : ∃ plan, answer = .ok plan := by
  induction h with
  | unknown hs hc =>
    obtain ⟨p, hp⟩ := Registry.exists_config?_of_contains hn
    rw [hc] at hp
    cases hp
  | @loop stack name hs =>
    -- the projects under way are a walk from the outermost one, and it comes back
    obtain ⟨first, between, rfl⟩ := List.exists_cons_of_ne_nil (List.ne_nil_of_mem hs)
    obtain ⟨next, rest, hnext⟩ : ∃ next rest, between ++ [name] = next :: rest :=
      List.exists_cons_of_ne_nil (by simp)
    have hwalk : (first :: (between ++ [name])).IsChain r.DependsOn := hchain
    obtain ⟨p, hp, -⟩ : r.DependsOn first next := by
      rw [hnext] at hwalk
      exact (List.isChain_cons_cons.mp hwalk).1
    have hfirst : p.name = first := Registry.name_of_config? hp
    have hnd : (first :: between ++ [name]).Nodup := by
      rw [← hfirst] at hwalk ⊢
      exact (hall first p hp).noReturn _ hwalk
    exact absurd rfl ((List.nodup_append.mp hnd).2.2 name hs name (by simp))
  | @noWorker _ name p hs hc hk =>
    have := (hall name p hc).knowsWorker
    rw [hk] at this
    cases this
  | @root _ name p hs hc hk hd => exact c.exists_planWith (hall name p hc).locator []
  | @child stack name parent p answer hs hc hk hd _ ih =>
    have hp := hall name p hc
    -- the walk that leads to the project goes on to the parent
    have hchain' : (stack ++ [name] ++ [parent]).IsChain r.DependsOn := by
      refine hchain.append (List.isChain_singleton parent) fun last hlast m hm => ?_
      have hl : name = last := by simpa using hlast
      have hm' : parent = m := by simpa using hm
      exact hl ▸ hm' ▸ ⟨p, hc, hd⟩
    obtain ⟨parentPlan, rfl⟩ := ih (hp.parent_mem parent hd) hchain'
    exact c.exists_planWith hp.locator parentPlan.schedulers

/-- All projects of a registry compile if and only if each of them is accepted. -/
theorem Settled.compileAll_eq_ok_iff (h : c.Settled r) (hs : r.stack = []) :
    (∃ master, (c.compileAll r).result = .ok master) ↔
      ∀ p ∈ r.entries.map RegistryEntry.config, c.Accepts r p := by
  have hconfig : ∀ {n : String} {p : ProjectConfig}, r.config? n = some p ↔
      p ∈ r.entries.map RegistryEntry.config ∧ p.name = n :=
    Registry.config?_eq_some_iff_mem h.consistent.keys_nodup
  rw [h.exists_compileAll_iff hs]
  constructor
  · intro hok p hp
    have hc : r.config? p.name = some p := hconfig.mpr ⟨hp, rfl⟩
    obtain ⟨plan, hplan⟩ := hok p.name
      ((h.consistent.mem_names_iff p.name).mpr (Registry.contains_of_config? hc))
    have hy := h.yields_resolve p.name
    rw [hplan] at hy
    exact hy.accepts hc
  · intro hall n hn
    refine (h.yields_resolve n).exists_ok (fun m p hc => hall p (hconfig.mp hc).1)
      ((h.consistent.mem_names_iff n).mp hn) ?_
    rw [hs]
    exact List.isChain_singleton n

end Compiler

end BuildPlan
