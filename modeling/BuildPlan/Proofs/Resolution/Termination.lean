import BuildPlan.Proofs.Compiler.Search
import BuildPlan.Proofs.Registry.Progress
import BuildPlan.Proofs.Resolution.Transcript

/-!
# How far a resolution goes

An assembler that gives up as soon as a project cannot be resolved calls no assembly twice: what has been
assembled with success is resolved, and after a failure nothing is called any more.  Since every assembly
inside of others is that of one more unresolved project, the resolution comes to an end
(`Assembler.resolution_terminates`).
-/

namespace BuildPlan

variable {ε : Type}

/-! ### Assemblers that stop at errors -/

namespace Script

theorem stopsAtErrors_resolveAll {rest : Script ε} (h : rest.StopsAtErrors) (names : List String) :
    (resolveAll names rest).StopsAtErrors := by
  induction names with
  | nil => exact h
  | cons name names ih => exact ⟨fun _ => ih, fun e => ⟨e, rfl⟩⟩

end Script

namespace Assembler

/-- The assembler that has the dependencies of each project resolved in order and then ends. -/
def ofDependencies (dependencies : ProjectConfig → List String)
    (last : ProjectConfig → Except CompileError ProjectPlan) (report : RegistryEvent → ε) :
    Assembler ε :=
  { assemble := fun config => .resolveAll (dependencies config) (.finish (last config)), report }

theorem stopsAtErrors_ofDependencies (dependencies : ProjectConfig → List String)
    (last : ProjectConfig → Except CompileError ProjectPlan) (report : RegistryEvent → ε) :
    (ofDependencies dependencies last report).StopsAtErrors := by
  intro config
  have hlast : (.finish (last config) : Script ε).StopsAtErrors := trivial
  exact Script.stopsAtErrors_resolveAll hlast (dependencies config)

end Assembler

/-! ### Watching assemblies -/

/-- An assembly that was called, and the projects under way then, outermost first; the last of them is
the project itself. -/
structure CalledAssembly where
  name : String
  stack : List String

/-- The script without its events. -/
def Script.quiet {δ : Type} : Script ε → Script δ
  | .finish result => .finish result
  | .emit _ next => next.quiet
  | .inspect next => .inspect fun r => (next r).quiet
  | .register config next => .register config fun answer => (next answer).quiet
  | .resolve name next => .resolve name fun answer => (next answer).quiet

/-- The assembler that does the same and reports, in place of all else, which assemblies are called. -/
def Assembler.watched (a : Assembler ε) : Assembler (Option CalledAssembly) where
  assemble config := .inspect fun r => .emit (some ⟨config.name, r.stack⟩) (a.assemble config).quiet
  report _ := none

/-- The assemblies that were called in a watched run, in order. -/
def Outcome.assemblies {α : Type} (o : Outcome (Option CalledAssembly) α) : List CalledAssembly :=
  o.events.filterMap id

@[simp] theorem Outcome.assemblies_after {α : Type} (earlier : List (Option CalledAssembly))
    (o : Outcome (Option CalledAssembly) α) :
    (o.after earlier).assemblies = earlier.filterMap id ++ o.assemblies := by
  simp [assemblies, after]

section Watching

variable {δ : Type} {a : Assembler ε} {depth : ℕ} {r : Registry} {name : String}

/-- A run comes to the same as another one, but for the events. -/
def ComesTo (run : Option (Outcome δ ProjectPlan)) (o : Outcome ε ProjectPlan) : Prop :=
  ∃ o', run = some o' ∧ o'.result = o.result ∧ o'.registry = o.registry

theorem Script.run_quiet {nested : Registry → String → Option (Outcome ε ProjectPlan)}
    {nested' : Registry → String → Option (Outcome δ ProjectPlan)}
    (hn : ∀ r name o, nested r name = some o → ComesTo (nested' r name) o) (s : Script ε)
    (r : Registry) (o : Outcome ε ProjectPlan) (h : s.run nested r = some o) :
    ComesTo (s.quiet.run nested' r) o := by
  induction s generalizing r o with
  | finish result =>
    cases h
    exact ⟨_, rfl, rfl, rfl⟩
  | emit event next ih =>
    obtain ⟨o₁, h₁, rfl⟩ := Option.map_eq_some_iff.mp h
    exact ih r o₁ h₁
  | inspect next ih => exact ih r r o h
  | register config next ih =>
    obtain ⟨answer, r', -, hrun⟩ := exists_run_register config r []
    rw [hrun] at h
    rw [quiet, hrun]
    exact ih answer r' o h
  | resolve asked next ih =>
    obtain ⟨o₁, o₂, h₁, h₂, rfl⟩ := run_resolve_eq_some_iff.mp h
    obtain ⟨o₁', h₁', hres₁, hreg₁⟩ := hn r asked o₁ h₁
    obtain ⟨o₂', h₂', hres₂, hreg₂⟩ := ih o₁.result o₁.registry o₂ h₂
    rw [← hres₁, ← hreg₁] at h₂'
    exact ⟨o₂'.after o₁'.events, run_resolve_eq_some_iff.mpr ⟨o₁', o₂', h₁', h₂', rfl⟩, hres₂, hreg₂⟩

/-- To be watched changes nothing. -/
theorem Assembler.resolveWithin_watched (o : Outcome ε ProjectPlan)
    (h : a.resolveWithin depth r name = some o) :
    ComesTo (a.watched.resolveWithin depth r name) o := by
  refine a.resolveWithin_induction
    (motive := fun depth r name o => ComesTo (a.watched.resolveWithin depth r name) o)
    (fun depth r name he => ?_) (fun depth r name config plan he => ?_)
    (fun depth r name config he => ?_) (fun depth r name config o he ih hrun => ?_) depth r name o h
  · exact ⟨_, resolveWithin_of_none _ _ he, rfl, rfl⟩
  · exact ⟨_, resolveWithin_of_resolved _ _ he, rfl, rfl⟩
  · exact ⟨_, resolveWithin_of_inProgress _ _ he, rfl, rfl⟩
  · obtain ⟨o', h', hres, hreg⟩ := Script.run_quiet ih (a.assemble config) (r.enter name) o hrun
    rw [resolveWithin_succ_of_unresolved _ _ he]
    refine ⟨_, congrArg (Option.map _) (congrArg (Option.map _) h'), hres, ?_⟩
    show o'.registry.leave name o'.result = _
    rw [hres, hreg]

end Watching

/-! ### What is called in a resolution -/

/-- The outcome of a watched run from the registry `r`: what was called is named once, was unresolved and
nested no deeper than `depth`, and is resolved if the run has succeeded. -/
structure Outcome.CallsOnce (o : Outcome (Option CalledAssembly) ProjectPlan) (depth : ℕ)
    (r : Registry) : Prop where
  resolves : ∃ added, r.Resolves added o.registry
  nodup : (o.assemblies.map CalledAssembly.name).Nodup
  unresolved : ∀ call ∈ o.assemblies, r.state? call.name = some .unresolved
  nested : ∀ call ∈ o.assemblies, ∃ inside, call.stack = r.stack ++ inside ∧ inside.length ≤ depth
  resolved : (∃ plan, o.result = .ok plan) →
    ∀ call ∈ o.assemblies, ∃ plan, o.registry.state? call.name = some (.resolved plan)

namespace Outcome.CallsOnce

variable {o o' : Outcome (Option CalledAssembly) ProjectPlan} {depth : ℕ} {r : Registry}
  {name : String} {config : ProjectConfig}

/-- Where nothing is called, nothing changes. -/
theorem of_nil (depth : ℕ) (r : Registry) (result : Except CompileError ProjectPlan) :
    (⟨result, r, []⟩ : Outcome (Option CalledAssembly) ProjectPlan).CallsOnce depth r where
  resolves := ⟨[], .refl r⟩
  nodup := List.nodup_nil
  unresolved _ hcall := absurd hcall List.not_mem_nil
  nested _ hcall := absurd hcall List.not_mem_nil
  resolved _ _ hcall := absurd hcall List.not_mem_nil

/-- After a success the run goes on with other projects. -/
theorem after_ok {plan : ProjectPlan} (h : o.CallsOnce depth r) (hok : o.result = .ok plan)
    (h' : o'.CallsOnce depth o.registry) : (o'.after o.events).CallsOnce depth r := by
  obtain ⟨added, hres⟩ := h.resolves
  obtain ⟨more, hres'⟩ := h'.resolves
  have hdone := h.resolved ⟨plan, hok⟩
  have hcalls : (o'.after o.events).assemblies = o.assemblies ++ o'.assemblies :=
    Outcome.assemblies_after _ _
  refine ⟨⟨_, hres.trans hres'⟩, ?_, ?_, ?_, fun hsuccess => ?_⟩
  · rw [hcalls, List.map_append, List.nodup_append]
    refine ⟨h.nodup, h'.nodup, fun n hn m hm => ?_⟩
    obtain ⟨call, hcall, rfl⟩ := List.mem_map.mp hn
    obtain ⟨call', hcall', rfl⟩ := List.mem_map.mp hm
    -- the one is resolved by now, and the other is not
    obtain ⟨done, hs⟩ := hdone call hcall
    intro hname
    rw [hname, h'.unresolved call' hcall'] at hs
    cases hs
  · rw [hcalls, List.forall_mem_append]
    exact ⟨h.unresolved, fun call hcall => hres.unresolved_of_unresolved (h'.unresolved call hcall)⟩
  · rw [hcalls, List.forall_mem_append]
    refine ⟨h.nested, fun call hcall => ?_⟩
    rw [← hres.stack_eq]
    exact h'.nested call hcall
  · rw [hcalls, List.forall_mem_append]
    refine ⟨fun call hcall => ?_, h'.resolved hsuccess⟩
    obtain ⟨done, hs⟩ := hdone call hcall
    exact ⟨done, hres'.state?_eq hs nofun⟩

/-- After a failure nothing is called. -/
theorem of_error {e : CompileError} (h : o.CallsOnce depth r) :
    (⟨.error e, o.registry, o.events⟩ : Outcome _ ProjectPlan).CallsOnce depth r where
  resolves := h.resolves
  nodup := h.nodup
  unresolved := h.unresolved
  nested := h.nested
  resolved := by rintro ⟨plan, ⟨⟩⟩

/-- The assembly of an unresolved project, around what is called inside of it. -/
theorem assembled (he : r.get? name = some ⟨config, .unresolved⟩)
    (h : o.CallsOnce depth (r.enter name)) :
    (⟨o.result, o.registry.leave name o.result,
      none :: some ⟨name, (r.enter name).stack⟩ :: o.events⟩ :
        Outcome (Option CalledAssembly) ProjectPlan).CallsOnce (depth + 1) r := by
  obtain ⟨added, hres⟩ := h.resolves
  -- inside of its assembly the project is under way, so the other calls are of other projects
  have hother : ∀ call ∈ o.assemblies, call.name ≠ name ∧ r.state? call.name = some .unresolved :=
    fun call hcall => Registry.unresolved_of_state?_enter he (h.unresolved call hcall)
  have hinside := Registry.state?_of_get? (hres.get?_of_enter he)
  refine ⟨hres.exists_leave he o.result, ?_, ?_, ?_, ?_⟩
  · show (name :: o.assemblies.map CalledAssembly.name).Nodup
    refine List.nodup_cons.mpr ⟨fun hmem => ?_, h.nodup⟩
    obtain ⟨call, hcall, hname⟩ := List.mem_map.mp hmem
    exact (hother call hcall).1 hname
  · refine List.forall_mem_cons.mpr ⟨Registry.state?_of_get? he, fun call hcall => ?_⟩
    exact (hother call hcall).2
  · refine List.forall_mem_cons.mpr ⟨⟨[name], rfl, by simp⟩, fun call hcall => ?_⟩
    obtain ⟨inside, hstack, hle⟩ := h.nested call hcall
    refine ⟨name :: inside, ?_, Nat.succ_le_succ hle⟩
    rw [hstack, Registry.stack_enter, List.append_assoc, List.singleton_append]
  · rintro ⟨plan, hok⟩
    have hok : o.result = .ok plan := hok
    refine List.forall_mem_cons.mpr ⟨⟨plan, ?_⟩, fun call hcall => ?_⟩
    · show (o.registry.leave name o.result).state? name = _
      rw [Registry.state?_leave hinside, if_pos rfl, hok]
      rfl
    · obtain ⟨done, hs⟩ := h.resolved ⟨plan, hok⟩ call hcall
      refine ⟨done, ?_⟩
      show (o.registry.leave name o.result).state? call.name = _
      rw [Registry.state?_leave hinside, if_neg (hother call hcall).1, hs]

end Outcome.CallsOnce

section Calling

variable {depth : ℕ} {nested : Registry → String → Option (Outcome (Option CalledAssembly) ProjectPlan)}

theorem Script.GivesUp.run_quiet {s : Script ε} (h : s.GivesUp) {r : Registry}
    {o : Outcome (Option CalledAssembly) ProjectPlan} (hr : s.quiet.run nested r = some o) :
    ∃ e, o = ⟨.error e, r, []⟩ := by
  induction s with
  | finish result =>
    obtain ⟨e, rfl⟩ := h
    cases hr
    exact ⟨e, rfl⟩
  | emit event next ih => exact ih h hr
  | inspect next ih => exact ih r (h r) hr
  | register config next => exact h.elim
  | resolve name next => exact h.elim

/-- A script that stops at errors calls what the resolutions inside of it call. -/
theorem Script.StopsAtErrors.callsOnce
    (hn : ∀ r name o, nested r name = some o → o.CallsOnce depth r) {s : Script ε}
    (h : s.StopsAtErrors) {r : Registry} {o : Outcome (Option CalledAssembly) ProjectPlan}
    (hr : s.quiet.run nested r = some o) : o.CallsOnce depth r := by
  induction s generalizing r o with
  | finish result =>
    cases hr
    exact .of_nil depth r result
  | emit event next ih => exact ih h hr
  | inspect next ih => exact ih r (h r) hr
  | register config next => exact h.elim
  | resolve asked next ih =>
    obtain ⟨o₁, o₂, h₁, h₂, rfl⟩ := run_resolve_eq_some_iff.mp hr
    have hcalls := hn r asked o₁ h₁
    cases hres : o₁.result with
    | ok plan =>
      rw [hres] at h₂
      exact hcalls.after_ok hres (ih _ (h.1 plan) h₂)
    | error e =>
      rw [hres] at h₂
      -- the script gives up without a further call
      obtain ⟨e', rfl⟩ := (h.2 e).run_quiet h₂
      have hafter : (⟨.error e', o₁.registry, []⟩ : Outcome _ ProjectPlan).after o₁.events =
          ⟨.error e', o₁.registry, o₁.events⟩ := by
        rw [Outcome.after, List.append_nil]
      rw [hafter]
      exact hcalls.of_error

theorem Assembler.StopsAtErrors.callsOnce {a : Assembler ε} (h : a.StopsAtErrors) {r : Registry}
    {name : String} {o : Outcome (Option CalledAssembly) ProjectPlan}
    (hr : a.watched.resolveWithin depth r name = some o) : o.CallsOnce depth r := by
  refine a.watched.resolveWithin_induction (motive := fun depth r _ o => o.CallsOnce depth r)
    (fun depth r name _ => .of_nil depth r _) (fun depth r name config plan _ => .of_nil depth r _)
    (fun depth r name config _ => ?_) (fun depth r name config o he ih hrun => ?_) depth r name o hr
  · have hnil := Outcome.CallsOnce.of_nil depth r (.error (.dependencyCycle (r.loop name)))
    exact ⟨hnil.resolves, hnil.nodup, hnil.unresolved, hnil.nested, hnil.resolved⟩
  · obtain ⟨o', ho', rfl⟩ := Option.map_eq_some_iff.mp hrun
    have hname : config.name = name := Registry.name_of_get? he
    have hcalls := ((h config).callsOnce ih ho').assembled he
    rw [← hname] at hcalls ⊢
    exact hcalls

end Calling

/-- **Every resolution comes to an end.**  Assemblers that have the dependencies of each project resolved
in order and stop at the first error, and compilers, stop at errors.  With such an assembler, whatever
depends on what, the resolution of a name has an outcome, and has it as soon as as many assemblies may be
inside each other as projects are unresolved.  Until then no project is assembled twice and none but those
that were unresolved at the start, with never more of them under way at once than there were. -/
theorem Assembler.resolution_terminates :
    (∀ c : Compiler, c.assembler.StopsAtErrors) ∧
    (∀ (ε : Type) (dependencies : ProjectConfig → List String)
      (last : ProjectConfig → Except CompileError ProjectPlan) (report : RegistryEvent → ε),
      (ofDependencies dependencies last report).StopsAtErrors) ∧
    ∀ (ε : Type) (a : Assembler ε), a.StopsAtErrors → ∀ (r : Registry) (name : String),
      ∃ o o', (∀ depth ≥ r.unresolvedCount, a.resolveWithin depth r name = some o) ∧
        (∀ depth ≥ r.unresolvedCount, a.watched.resolveWithin depth r name = some o') ∧
        o'.result = o.result ∧ o'.registry = o.registry ∧
        (o'.assemblies.map CalledAssembly.name).Nodup ∧
        ∀ call ∈ o'.assemblies, r.state? call.name = some .unresolved ∧
          ∃ inside, call.stack = r.stack ++ inside ∧ inside.length ≤ r.unresolvedCount := by
  refine ⟨fun c => c.search.stopsAtErrors, fun ε => stopsAtErrors_ofDependencies,
    fun ε a ha r name => ?_⟩
  have ho := resolveWithin_eq_resolve ha.registersNothing r name
  obtain ⟨o', ho', hres, hreg⟩ := resolveWithin_watched _ ho
  have hcalls := ha.callsOnce ho'
  exact ⟨_, o', fun depth hd => resolveWithin_mono hd ho, fun depth hd => resolveWithin_mono hd ho',
    hres, hreg, hcalls.nodup, fun call hcall => ⟨hcalls.unresolved call hcall, hcalls.nested call hcall⟩⟩

/-- A loop that is reached in two ways: `d` is asked for twice and assembled once. -/
theorem Assembler.resolution_terminates_of_forked :
    let a := ofDependencies (fun config => DependencySearch.forked config.name)
      (fun config => .ok { name := config.name, schedulers := [], builders := [], notifier := none }) id
    let r := Registry.fresh (["a", "b", "c", "d", "e"].map .plain)
    a.StopsAtErrors ∧ r.unresolvedCount = 5 ∧
    ∃ o o', (∀ depth ≥ 5, a.resolveWithin depth r "a" = some o) ∧
      o.result = .error (.dependencyCycle ["c", "e", "c"]) ∧
      a.watched.resolveWithin 5 r "a" = some o' ∧
      o'.assemblies.map CalledAssembly.name = ["a", "b", "d", "c", "e"] ∧
      (o'.assemblies.map CalledAssembly.name).Nodup ∧
      ∀ call ∈ o'.assemblies, r.state? call.name = some .unresolved ∧ call.stack.length ≤ 5 := by
  intro a r
  have ha : a.StopsAtErrors := stopsAtErrors_ofDependencies _ _ _
  have hcount : r.unresolvedCount = 5 := by rfl
  have hresult : (a.resolveWithin 5 r "a").map Outcome.result =
      some (.error (.dependencyCycle ["c", "e", "c"])) := by rfl
  have hnames : (a.watched.resolveWithin 5 r "a").map
      (fun o => o.assemblies.map CalledAssembly.name) = some ["a", "b", "d", "c", "e"] := by rfl
  obtain ⟨o, o', ho, ho', -, -, hnodup, hcalls⟩ := resolution_terminates.2.2 _ a ha r "a"
  rw [hcount] at ho ho' hcalls
  rw [ho 5 le_rfl] at hresult
  rw [ho' 5 le_rfl] at hnames
  refine ⟨ha, hcount, o, o', ho, Option.some.inj hresult, ho' 5 le_rfl, Option.some.inj hnames, hnodup,
    fun call hcall => ⟨(hcalls call hcall).1, ?_⟩⟩
  obtain ⟨inside, hstack, hle⟩ := (hcalls call hcall).2
  rw [hstack]
  exact hle

end BuildPlan
