import BuildPlan.Proofs.Compiler.Calls
import BuildPlan.Proofs.Project.Plain

/-!
# Resolution without a history

What a project comes to can be told from the registered configurations and the names under way
(`Compiler.Yields`), and in one way only.  A resolution gives just this, however many plans the registry
has from earlier calls.  So a registry with a long history answers as a fresh one does.
-/

namespace BuildPlan

namespace Compiler

/-- What a project comes to among the given configurations if nothing has been resolved and the names
on the stack are under way. -/
inductive Yields (c : Compiler) (config? : String → Option ProjectConfig) :
    List String → String → Except CompileError ProjectPlan → Prop where
  | unknown {stack : List String} {name : String} (hs : name ∉ stack) (hc : config? name = none) :
    Yields c config? stack name (.error (.unknownDependency name))
  | loop {stack : List String} {name : String} (hs : name ∈ stack) :
    Yields c config? stack name
      (.error (.dependencyCycle (stack.dropWhile (· != name) ++ [name])))
  | noWorker {stack : List String} {name : String} {p : ProjectConfig} (hs : name ∉ stack)
    (hc : config? name = some p) (hw : c.knowsWorkerOf p = false) :
    Yields c config? stack name (.error (.invalidWorkerSet p.workers))
  | root {stack : List String} {name : String} {p : ProjectConfig} (hs : name ∉ stack)
    (hc : config? name = some p) (hw : c.knowsWorkerOf p) (hd : p.schedule.dependent = none) :
    Yields c config? stack name (c.planWith p (.ok []))
  | child {stack : List String} {name parent : String} {p : ProjectConfig}
    {answer : Except CompileError ProjectPlan} (hs : name ∉ stack) (hc : config? name = some p)
    (hw : c.knowsWorkerOf p) (hd : p.schedule.dependent = some parent)
    (h : Yields c config? (stack ++ [name]) parent answer) :
    Yields c config? stack name (c.planWith p (answer.map ProjectPlan.schedulers))

variable {c : Compiler} {config? : String → Option ProjectConfig} {r : Registry}
  {stack : List String} {name : String} {plan : ProjectPlan}
  {first second : Except CompileError ProjectPlan}

/-- A project comes to one thing only. -/
theorem Yields.unique (h : c.Yields config? stack name first)
    (h' : c.Yields config? stack name second) : first = second := by
  induction h generalizing second with
  | unknown hs hc => cases h' <;> simp_all
  | loop hs => cases h' <;> simp_all
  | noWorker hs hc hw => cases h' <;> simp_all
  | root hs hc hw hd => cases h' <;> simp_all
  | child hs hc hw hd _ ih =>
    cases h' with
    | child _ hc' _ hd' h' =>
      cases hc.symm.trans hc'
      cases hd.symm.trans hd'
      rw [ih h']
    | _ => simp_all

/-- A plan in the registry is what the project comes to, as long as neither the project nor what was
resolved before it is under way. -/
theorem Settled.yields_of_plan? (h : c.Settled r) {before after : List String}
    (hl : r.resolvedNames = before ++ name :: after) (hp : r.plan? name = some plan)
    (hs : ∀ n ∈ before ++ [name], n ∉ stack) : c.Yields r.config? stack name (.ok plan) := by
  -- by induction on how many projects have been resolved in front of this one
  induction hn : before.length using Nat.strongRecOn
    generalizing before name after plan stack with
  | ind n ih =>
    subst hn
    have hname : name ∉ stack := hs name (by simp)
    obtain ⟨p, hc, hw, ⟨hd, hplan⟩ | ⟨parent, parentPlan, hd, hparent, hplan⟩⟩ := h.plan_cases hp
    · rw [← hplan]
      exact .root hname hc hw hd
    · -- the parent stands further in front, and nothing up to it is the project
      obtain ⟨front, back, rfl, hl'⟩ := h.ordered.exists_split hl ⟨p, hc, hd⟩
      have hnd := h.consistent.resolved_nodup
      rw [hl, List.nodup_append] at hnd
      have hfront : ∀ n ∈ front ++ [parent], n ∈ front ++ parent :: back := by
        intro n hn
        rw [List.mem_append, List.mem_singleton] at hn
        rcases hn with hn | rfl
        · exact List.mem_append_left _ hn
        · exact List.mem_append_right _ List.mem_cons_self
      have hyields : c.Yields r.config? (stack ++ [name]) parent (.ok parentPlan) := by
        refine ih _ (by simp) hl' hparent (fun n hn hmem => ?_) rfl
        rcases List.mem_append.mp hmem with hmem | hmem
        · exact hs n (List.mem_append_left _ (hfront n hn)) hmem
        · cases List.mem_singleton.mp hmem
          exact hnd.2.2 name (hfront name hn) name List.mem_cons_self rfl
      rw [← hplan]
      exact .child hname hc hw hd hyields

/-- A resolution gives what the project comes to, whatever has been resolved before. -/
theorem Settled.yields_resolve (h : c.Settled r) (name : String) :
    c.Yields r.config? r.stack name (c.resolve r name).result := by
  induction r, name using c.resolve_induction with
  | unknown r name he =>
    rw [resolve_of_none c he]
    refine .unknown (fun hs => ?_) (Registry.config?_eq_none_iff.mpr he)
    obtain ⟨p, hp⟩ := Registry.state?_eq_some_iff.mp ((h.consistent.mem_stack_iff name).mp hs)
    cases he.symm.trans hp
  | resolved r name p plan he =>
    rw [resolve_of_resolved c he]
    have hp := Registry.state?_of_get? he
    have hmem : name ∈ r.resolvedNames := (h.consistent.mem_resolved_iff name).mpr ⟨plan, hp⟩
    obtain ⟨before, after, hl⟩ := List.append_of_mem hmem
    -- what stands in front of it has been resolved, and so is not under way
    refine h.yields_of_plan? hl (Registry.plan?_eq_some_iff.mpr hp) fun n hn hs => ?_
    refine h.consistent.notMem_resolved_of_mem_stack hs ?_
    rw [hl]
    rw [List.mem_append, List.mem_singleton] at hn
    rcases hn with hn | rfl
    · exact List.mem_append_left _ hn
    · exact List.mem_append_right _ List.mem_cons_self
  | underWay r name p he =>
    rw [resolve_of_inProgress c he]
    have hs := (h.consistent.mem_stack_iff name).mpr (Registry.state?_of_get? he)
    rw [Registry.loop_of_mem hs]
    exact .loop hs
  | noWorker r name p he hw =>
    rw [resolve_of_noWorker he hw]
    exact .noWorker (h.consistent.notMem_stack (Registry.state?_of_get? he))
      (Registry.config?_of_get? he) hw
  | root r name p he hw hd =>
    rw [resolve_of_root he hw hd]
    exact .root (h.consistent.notMem_stack (Registry.state?_of_get? he))
      (Registry.config?_of_get? he) hw hd
  | child r name p parent he hw hd ih =>
    have hparent := ih (h.enter he)
    rw [Registry.config?_enter, Registry.stack_enter] at hparent
    rw [resolve_of_dependent he hw hd]
    exact .child (h.consistent.notMem_stack (Registry.state?_of_get? he))
      (Registry.config?_of_get? he) hw hd hparent

/-- Two registries with the same configurations and nothing under way give the same answers. -/
theorem Settled.result_eq {r' : Registry} (h : c.Settled r) (h' : c.Settled r')
    (hc : r'.config? = r.config?) (hs : r.stack = []) (hs' : r'.stack = []) (name : String) :
    (c.resolve r name).result = (c.resolve r' name).result := by
  have hy := h.yields_resolve name
  have hy' := h'.yields_resolve name
  rw [hs] at hy
  rw [hc, hs'] at hy'
  exact hy.unique hy'

theorem settled_fresh {configs : List ProjectConfig}
    (h : (configs.map ProjectConfig.name).Nodup) : c.Settled (Registry.fresh configs) where
  consistent := Registry.consistent_fresh h
  ordered := .nil
  planned name p plan he := by
    cases Registry.state_of_mem_fresh (Registry.mem_entries_of_get? he)

end Compiler

theorem Registry.config?_of_perm {r r' : Registry} (hr : r.keys.Nodup) (hr' : r'.keys.Nodup)
    (h : (r'.entries.map RegistryEntry.config).Perm (r.entries.map RegistryEntry.config)) :
    r'.config? = r.config? := by
  funext name
  apply Option.ext
  intro p
  rw [config?_eq_some_iff_mem hr, config?_eq_some_iff_mem hr', h.mem_iff]

/-- **Resolution has no history.**  After any calls, each of which may have failed, a resolution gives
what it gives in a registry in which the same configurations have been registered in any order and
nothing has been resolved. -/
theorem Compiler.resolve_history_independent (c : Compiler) (cs : List Call)
    (configs : List ProjectConfig)
    (h : configs.Perm ((c.calls cs).entries.map RegistryEntry.config)) :
    ∃ fresh, Registry.ofConfigs configs = .ok fresh ∧
      (∀ e ∈ fresh.entries, e.state = .unresolved) ∧
      ∀ name, (c.resolve (c.calls cs) name).result = (c.resolve fresh name).result := by
  have hr := c.settled_calls cs
  have hnd : (configs.map ProjectConfig.name).Nodup := by
    rw [(h.map ProjectConfig.name).nodup_iff, ← Registry.keys_eq_map_configs]
    exact hr.consistent.keys_nodup
  have hf : c.Settled (Registry.fresh configs) := settled_fresh hnd
  refine ⟨Registry.fresh configs, Registry.ofConfigs_of_nodup hnd,
    fun _ => Registry.state_of_mem_fresh, fun name => ?_⟩
  refine hr.result_eq hf ?_ (c.stack_calls cs) rfl name
  -- nothing but the configurations counts, and they are the same
  refine Registry.config?_of_perm hr.consistent.keys_nodup hf.consistent.keys_nodup ?_
  rwa [Registry.configs_fresh]

/-- A project fails for want of its parent, and is resolved when the parent is there. -/
theorem Compiler.resolve_retried :
    let c := Compiler.ofWorkers (.ofList ["w"])
    let lib := ProjectConfig.chained "lib" none
    let app := ProjectConfig.chained "app" (some "lib")
    let early := [.register app, .compileAll]
    let cs := early ++ [.register lib, .resolve "app"]
    (c.resolve (c.calls early) "app").result = .error (.unknownDependency "lib") ∧
    (c.calls cs).resolvedNames = ["lib", "app"] ∧
    [lib, app].Perm ((c.calls cs).entries.map RegistryEntry.config) ∧
    ∃ fresh, Registry.ofConfigs [lib, app] = .ok fresh ∧
      (c.resolve (c.calls cs) "app").result = (c.resolve fresh "app").result := by
  intro c lib app early cs
  have hearly : (c.resolve (c.calls early) "app").result = .error (.unknownDependency "lib") := by
    decide +kernel
  have hlist : (c.calls cs).resolvedNames = ["lib", "app"] := by decide +kernel
  have hconfigs : (c.calls cs).entries.map RegistryEntry.config = [app, lib] := by decide +kernel
  have hperm : [lib, app].Perm ((c.calls cs).entries.map RegistryEntry.config) := by
    rw [hconfigs]
    exact List.Perm.swap app lib []
  obtain ⟨fresh, hf, -, hres⟩ := c.resolve_history_independent cs [lib, app] hperm
  exact ⟨hearly, hlist, hperm, fresh, hf, hres "app"⟩

end BuildPlan
