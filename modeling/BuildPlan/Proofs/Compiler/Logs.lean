import BuildPlan.Proofs.Compiler.Batch
import BuildPlan.Proofs.Compiler.Nesting

/-!
# What the log tells

The log of a resolution tells how it went (`Outcome.Tells`): assemblies are announced and nested, what has
been added is what the registry lists as resolved, in this order, and if there is an error, the log breaks
off with it.  An assembly tells this if the resolution inside of it does, and a batch if its steps do.
-/

namespace BuildPlan

open Event

/-- The log tells how the run has gone that began with the registry `r`. -/
structure Outcome.Tells {α : Type} (o : Outcome Event α) (r : Registry) : Prop where
  resolves : r.Resolves (o.events.filterMap added?) o.registry
  announced : Announced o.events
  nested : openAfter [] o.events = some []
  begun_nodup : (o.events.filterMap begun?).Nodup
  unresolved : ∀ n ∈ o.events.filterMap begun?, r.state? n = some .unresolved
  completed : ∀ a, o.result = .ok a → o.events.filterMap failed? = []
  brokenOff : ∀ e, o.result = .error e → BreaksOff o.events e

/-! ### Resolutions -/

namespace Outcome

variable {α β : Type} {r : Registry} {p : ProjectConfig} {notes notes' : List Event}

/-- An answer that is there at once, with nothing but notes. -/
theorem tells_answer (r : Registry) (result : Except CompileError α) (hn : ∀ e ∈ notes, e.IsNote) :
    (⟨result, r, notes⟩ : Outcome Event α).Tells r where
  resolves := by
    rw [added?_notes hn]
    exact .refl r
  announced := announced_of_notes fun e he => (hn e he).begun
  nested := openAfter_notes hn []
  begun_nodup := by
    rw [begun?_notes hn]
    exact List.nodup_nil
  unresolved := by
    rw [begun?_notes hn]
    exact fun _ hc => absurd hc List.not_mem_nil
  completed _ _ := failed?_notes hn
  brokenOff e _ := breaksOff_of_closed (openAfter_notes hn []) (failed?_notes hn) e

/-- An assembly tells what the resolution inside of it does, and how the project itself comes out. -/
theorem Tells.assembly {o : Outcome Event ProjectPlan} (he : r.get? p.name = some ⟨p, .unresolved⟩)
    (h : o.Tells (r.enter p.name)) (hn : ∀ e ∈ notes, e.IsNote) (hn' : ∀ e ∈ notes', e.IsNote)
    {result : Except CompileError ProjectPlan} (hr : ∀ e, o.result = .error e → result = .error e) :
    (⟨result, o.registry.leave p.name result,
      assemblyLog p.name notes o.events notes' (Compiler.closingEvent p result)⟩ :
        Outcome Event ProjectPlan).Tells r := by
  have hclose : (Compiler.closingEvent p result).ended? = some p.name := by
    cases result <;> rfl
  have hbegun : (assemblyLog p.name notes o.events notes' (Compiler.closingEvent p result)).filterMap
      begun? = p.name :: o.events.filterMap begun? := begun?_assemblyLog hn hn' hclose
  -- what is opened inside was unresolved, and is not the project under way
  have hunresolved : ∀ n ∈ o.events.filterMap begun?, n ≠ p.name ∧ r.state? n = some .unresolved :=
    fun n hm => Registry.unresolved_of_state?_enter he (h.unresolved n hm)
  refine ⟨?_, announced_assemblyLog hn hn' h.announced (begun?_eq_none_of_ended hclose),
    openAfter_assemblyLog hn hn' h.nested hclose, ?_, ?_, ?_, ?_⟩
  · show r.Resolves (List.filterMap added? _) _
    rw [added?_assemblyLog hn hn']
    cases result with
    | ok plan => exact h.resolves.leave_ok he plan
    | error e =>
      rw [show (Compiler.closingEvent p (.error e)).added?.toList = [] from rfl, List.append_nil]
      exact h.resolves.leave_error he e
  · show (List.filterMap begun? _).Nodup
    rw [hbegun, List.nodup_cons]
    exact ⟨fun hm => (hunresolved _ hm).1 rfl, h.begun_nodup⟩
  · show ∀ n ∈ List.filterMap begun? _, _
    rw [hbegun, List.forall_mem_cons]
    exact ⟨Registry.state?_of_get? he, fun n hm => (hunresolved n hm).2⟩
  · rintro plan rfl
    -- the resolution inside has not failed, or the project would have failed with it
    have hok : ∃ plan, o.result = .ok plan := by
      cases ho : o.result with
      | ok plan => exact ⟨plan, rfl⟩
      | error e => cases hr e ho
    obtain ⟨inner, ho⟩ := hok
    show List.filterMap failed? _ = []
    rw [failed?_assemblyLog hn hn', h.completed inner ho]
    rfl
  · rintro e rfl
    -- either the part inside broke off already, or the project is the first to fail
    refine BreaksOff.assemblyLog hn hn' ?_
    cases ho : o.result with
    | ok plan => exact breaksOff_of_closed h.nested (h.completed plan ho) e
    | error e' =>
      cases hr e' ho
      exact h.brokenOff e ho

/-- In a run that succeeds, what has begun has been resolved. -/
theorem Tells.exists_plan_of_begun {o : Outcome Event α} (h : o.Tells r) {a : α}
    (ho : o.result = .ok a) {n : String} (hn : n ∈ o.events.filterMap begun?) :
    ∃ plan, o.registry.state? n = some (.resolved plan) := by
  have hperm := perm_of_openAfter h.nested
  rw [List.append_nil, List.append_nil, filterMap_ended?_of_no_failed (h.completed a ho)] at hperm
  exact h.resolves.resolved n (hperm.mem_iff.mp hn)

theorem Tells.of_error {o : Outcome Event α} (h : o.Tells r) {e : CompileError}
    (ho : o.result = .error e) : (⟨.error e, o.registry, o.events⟩ : Outcome Event β).Tells r where
  resolves := h.resolves
  announced := h.announced
  nested := h.nested
  begun_nodup := h.begun_nodup
  unresolved := h.unresolved
  completed := nofun
  brokenOff := by
    rintro _ ⟨⟩
    exact h.brokenOff e ho

/-- What comes after a run that has succeeded. -/
theorem Tells.andThen {o : Outcome Event α} {next : Registry → Outcome Event β} (h : o.Tells r)
    (h' : (next o.registry).Tells o.registry) : (o.andThen next).Tells r := by
  unfold Outcome.andThen
  cases ho : o.result with
  | error e => exact h.of_error ho
  | ok a =>
    have hclean := h.completed a ho
    refine ⟨?_, h.announced.append h'.announced, ?_, ?_, ?_, fun b hb => ?_, fun e he => ?_⟩
    · show r.Resolves (List.filterMap added? (_ ++ _)) _
      rw [List.filterMap_append]
      exact h.resolves.trans h'.resolves
    · show openAfter [] (_ ++ _) = _
      rw [openAfter_append_of h.nested, h'.nested]
    · show (List.filterMap begun? (_ ++ _)).Nodup
      rw [List.filterMap_append, List.nodup_append]
      -- an opened project that did not fail has a plan, and one with a plan is not opened again
      refine ⟨h.begun_nodup, h'.begun_nodup, fun n hn m hm hnm => ?_⟩
      obtain ⟨plan, hp⟩ := h.exists_plan_of_begun ho hn
      cases (h'.unresolved m hm).symm.trans (hnm ▸ hp)
    · show ∀ n ∈ List.filterMap begun? (_ ++ _), _
      rw [List.filterMap_append]
      intro n hn
      rcases List.mem_append.mp hn with hn | hn
      · exact h.unresolved n hn
      · exact h.resolves.unresolved_of_unresolved (h'.unresolved n hn)
    · show List.filterMap failed? (_ ++ _) = []
      rw [List.filterMap_append, hclean, h'.completed b hb, List.append_nil]
    · exact (h'.brokenOff e he).append_left h.nested hclean

end Outcome

namespace Compiler

variable {c : Compiler} {r : Registry} {p : ProjectConfig} {name : String}

/-! ### The stages of an assembly -/

theorem exists_openingEvents (c : Compiler) (p : ProjectConfig) :
    ∃ notes, (∀ e ∈ notes, Event.IsNote e) ∧ c.openingEvents p = .assembling p.name :: notes := by
  refine ⟨_, fun e he => ?_, rfl⟩
  split at he
  · cases he
  · rw [List.mem_singleton.mp he]
    exact ⟨rfl, rfl, rfl⟩

theorem isNote_of_mem_productEvents {e : Event} (h : e ∈ c.productEvents p) : e.IsNote := by
  unfold productEvents at h
  split at h
  · next pipeline _ =>
    rw [List.mem_append] at h
    rcases h with h | h
    · unfold builderEvents pipelineEvents at h
      rw [List.singleton_append, List.mem_cons, List.mem_map] at h
      rcases h with rfl | ⟨worker, -, rfl⟩
      · exact ⟨rfl, rfl, rfl⟩
      · exact ⟨rfl, rfl, rfl⟩
    · unfold notifier at h
      split at h
      · split at h
        · cases h
        · rw [List.mem_singleton.mp h]
          exact ⟨rfl, rfl, rfl⟩
      · rw [List.mem_singleton.mp h]
        exact ⟨rfl, rfl, rfl⟩
  · cases h

theorem exists_eventsWith (c : Compiler) (p : ProjectConfig)
    (parents : Except CompileError (List Scheduler)) :
    ∃ notes, (∀ e ∈ notes, Event.IsNote e) ∧
      c.eventsWith p parents = notes ++ [closingEvent p (c.planWith p parents)] := by
  refine ⟨_, fun e he => ?_, rfl⟩
  rcases List.mem_append.mp he with he | he
  · unfold ProjectConfig.arrange at he
    split at he
    · rw [List.mem_singleton.mp he]
      exact ⟨rfl, rfl, rfl⟩
    · rw [List.mem_singleton.mp he]
      exact ⟨rfl, rfl, rfl⟩
  · split at he
    · exact isNote_of_mem_productEvents he
    · cases he

/-! ### Resolutions and batches -/

/-- The log of a resolution tells how it went. -/
theorem tells_resolve (c : Compiler) (r : Registry) (name : String) : (c.resolve r name).Tells r := by
  induction r, name using c.resolve_induction with
  | unknown r name he =>
    rw [resolve_of_none c he]
    exact Outcome.tells_answer r _ isNote_of_mem_nil
  | resolved r name p plan he =>
    rw [resolve_of_resolved c he]
    exact Outcome.tells_answer r _ isNote_of_mem_nil
  | underWay r name p he =>
    rw [resolve_of_inProgress c he]
    refine Outcome.tells_answer r _ fun e h => ?_
    rw [List.mem_singleton.mp h]
    exact ⟨rfl, rfl, rfl⟩
  | noWorker r name p he hw =>
    obtain rfl : p.name = name := Registry.name_of_get? he
    have h := (Outcome.tells_answer (r.enter p.name) (.error (.invalidWorkerSet p.workers))
      isNote_of_mem_nil).assembly he isNote_of_mem_nil isNote_of_mem_nil fun _ h => h
    rw [resolve_of_noWorker he hw]
    rwa [Registry.leave_enter_error he] at h
  | root r name p he hw hd =>
    obtain rfl : p.name = name := Registry.name_of_get? he
    obtain ⟨notes, hn, ho⟩ := c.exists_openingEvents p
    obtain ⟨notes', hn', hc⟩ := c.exists_eventsWith p (.ok [])
    rw [resolve_of_root he hw hd, ho, hc]
    exact (Outcome.tells_answer (r.enter p.name) (c.planWith p (.ok []))
      isNote_of_mem_nil).assembly he hn hn' fun _ h => h
  | child r name p parent he hw hd ih =>
    obtain rfl : p.name = name := Registry.name_of_get? he
    obtain ⟨notes, hn, ho⟩ := c.exists_openingEvents p
    obtain ⟨notes', hn', hc⟩ := c.exists_eventsWith p
      ((c.resolve (r.enter p.name) parent).result.map ProjectPlan.schedulers)
    rw [resolve_of_dependent he hw hd, ho, hc]
    refine ih.assembly he hn hn' fun e h => ?_
    rw [h]
    exact planWith_error c p e

theorem tells_resolveEach (c : Compiler) (names : List String) (r : Registry) :
    (c.resolveEach names r).Tells r := by
  induction names generalizing r with
  | nil => exact Outcome.tells_answer r _ isNote_of_mem_nil
  | cons name rest ih =>
    rw [resolveEach_cons]
    exact (c.tells_resolve r name).andThen (ih _)

/-- When all projects have been resolved, they are installed and nothing is left but a note. -/
theorem compileAll_eq_andThen (c : Compiler) (r : Registry) :
    c.compileAll r = (c.resolveEach r.names r).andThen fun r' =>
      let master := MasterPlan.ofPlans r'.plans
      ⟨.ok master, r',
        [.masterCompiled r.names.length master.schedulers.length master.builders.length]⟩ := by
  unfold compileAll Outcome.andThen
  dsimp only
  cases (c.resolveEach r.names r).result <;> rfl

theorem tells_compileAll (c : Compiler) (r : Registry) : (c.compileAll r).Tells r := by
  rw [compileAll_eq_andThen]
  refine (c.tells_resolveEach r.names r).andThen (Outcome.tells_answer _ _ fun e h => ?_)
  rw [List.mem_singleton.mp h]
  exact ⟨rfl, rfl, rfl⟩

/-! ### Failures -/

/-- The assembly of a project is closed in the log, however it comes out. -/
theorem closingEvent_mem_resolve (he : r.get? name = some ⟨p, .unresolved⟩) :
    closingEvent p (c.resolve r name).result ∈ (c.resolve r name).events := by
  cases hw : c.knowsWorkerOf p with
  | false =>
    rw [resolve_of_noWorker he hw]
    simp [closingEvent]
  | true =>
    cases hd : p.schedule.dependent with
    | none =>
      rw [resolve_of_root he hw hd]
      simp [eventsWith]
    | some parent =>
      rw [resolve_of_dependent he hw hd]
      simp [eventsWith]

/-- A batch of registered projects that fails has failed to add one of them. -/
theorem Settled.exists_failed_resolveEach {names : List String} {e : CompileError} (h : c.Settled r)
    (hs : r.stack = []) (hn : ∀ n ∈ names, n ∈ r.names)
    (he : (c.resolveEach names r).result = .error e) :
    ∃ p, Event.assemblyFailed p e ∈ (c.resolveEach names r).events := by
  induction names generalizing r with
  | nil => cases he
  | cons name rest ih =>
    rw [List.forall_mem_cons] at hn
    cases hr : (c.resolve r name).result with
    | ok plan =>
      obtain ⟨added, hres⟩ := c.exists_resolves r name
      rw [resolveEach_cons_of_ok hr] at he ⊢
      obtain ⟨p, hp⟩ := ih (h.resolve name) (hres.stack_eq.trans hs)
        (fun n hm => hres.names_eq ▸ hn.2 n hm) he
      exact ⟨p, List.mem_append_right _ hp⟩
    | error e' =>
      rw [resolveEach_cons_of_error hr] at he ⊢
      cases he
      obtain ⟨⟨p, state⟩, hg⟩ := Registry.contains_iff.mp ((h.consistent.mem_names_iff name).mp hn.1)
      -- the project that fails is registered, not resolved and, the stack being empty, not under way
      cases state with
      | unresolved =>
        refine ⟨p.name, ?_⟩
        have hc := closingEvent_mem_resolve (c := c) hg
        rwa [hr] at hc
      | inProgress =>
        have hm := (h.consistent.mem_stack_iff name).mpr (Registry.state?_of_get? hg)
        rw [hs] at hm
        cases hm
      | resolved plan =>
        rw [resolve_of_resolved c hg] at hr
        cases hr

/-- When not all projects can be compiled, the log of the resolutions is all there is. -/
theorem compileAll_of_error {e : CompileError} (he : (c.compileAll r).result = .error e) :
    (c.resolveEach r.names r).result = .error e ∧
      (c.compileAll r).events = (c.resolveEach r.names r).events := by
  rw [compileAll_eq_andThen] at he ⊢
  unfold Outcome.andThen at he ⊢
  cases hr : (c.resolveEach r.names r).result with
  | ok u =>
    rw [hr] at he
    cases he
  | error e' =>
    rw [hr] at he
    cases he
    exact ⟨rfl, rfl⟩

/-- **The log tells the resolution.**  Whatever comes of compiling all projects: each beginning of an
assembly is announced at once, assemblies are nested, none begins twice and each that has begun ends once,
and the projects that are reported as added are the resolved ones, in order.  Nothing fails on success.
On an error, the log breaks off with it: the first failure is that of the innermost open assembly, then
the others that are open fail from the inside out, and nothing begins or is added any more. -/
theorem compileAll_log (c : Compiler) (configs : List ProjectConfig)
    (h : (configs.map ProjectConfig.name).Nodup) :
    ∃ r, Registry.ofConfigs configs = .ok r ∧
      let o := c.compileAll r
      let log := o.events
      (∀ (i : ℕ) p, log[i]? = some (.registry (.resolving p)) → log[i + 1]? = some (.assembling p)) ∧
      openAfter [] log = some [] ∧
      (log.filterMap begun?).Nodup ∧ (log.filterMap ended?).Perm (log.filterMap begun?) ∧
      log.filterMap added? = o.registry.resolvedNames ∧
      (∀ master, o.result = .ok master → log.filterMap failed? = []) ∧
      ∀ e, o.result = .error e →
        (∃ before p opened after, log = before ++ .assemblyFailed p e :: after ∧
          before.filterMap failed? = [] ∧ openAfter [] before = some (p :: opened) ∧
          after.filterMap begun? = [] ∧ after.filterMap added? = [] ∧
          after.filterMap failed? = opened.map fun q => (q, e)) ∧
        ∀ event ∈ log, event.message = "Error while adding project" →
          ∃ p, event.fields = [("project", .text p), ("error", .text e.message)] := by
  refine ⟨.fresh configs, Registry.ofConfigs_of_nodup h, ?_⟩
  set r := Registry.fresh configs
  intro o log
  have ht : o.Tells r := c.tells_compileAll r
  have hperm := perm_of_openAfter ht.nested
  -- nothing is open before or after, so as many are ended as are begun
  rw [List.append_nil, List.append_nil] at hperm
  refine ⟨ht.announced, ht.nested, ht.begun_nodup, hperm.symm, ?_, ht.completed, fun e he => ?_⟩
  · exact ht.resolves.resolvedNames_eq.symm
  · have hbreak : BreaksOff log e := ht.brokenOff e he
    obtain ⟨hr, hevents⟩ := compileAll_of_error he
    obtain ⟨p, hp⟩ := (settled_fresh h).exists_failed_resolveEach rfl (fun n hn => hn) hr
    rw [← hevents] at hp
    exact ⟨hbreak.exists_first hp, fun event hm => hbreak.fields_of_message hm⟩

/-- A project is added before the parent of the next one turns out to be malformed. -/
theorem compileAll_log_malformed_parent :
    let c := ofWorkers (.ofList ["w"])
    let configs := [ProjectConfig.chained "top" none, ProjectConfig.chained "app" (some "lib"),
      { ProjectConfig.chained "lib" none with vcs := .cvs }]
    let o := c.compileAll (Registry.fresh configs)
    (configs.map ProjectConfig.name).Nodup ∧ o.result = .error (.malformedLocator "") ∧
    o.events.filterMap begun? = ["top", "app", "lib"] ∧
    o.events.filterMap failed? = [("lib", .malformedLocator ""), ("app", .malformedLocator "")] ∧
    openAfter [] o.events = some [] ∧
    o.events.filterMap added? = o.registry.resolvedNames ∧
    ∃ before p opened after, o.events = before ++ .assemblyFailed p (.malformedLocator "") :: after ∧
      openAfter [] before = some (p :: opened) ∧
      after.filterMap failed? = opened.map fun q => (q, .malformedLocator "") := by
  intro c configs o
  have hnd : (configs.map ProjectConfig.name).Nodup := by decide
  obtain ⟨r, hr, -, hnested, -, -, hadded, -, hfail⟩ := c.compileAll_log configs hnd
  cases hr.symm.trans (Registry.ofConfigs_of_nodup hnd)
  have he : o.result = .error (.malformedLocator "") := by decide +kernel
  obtain ⟨⟨before, p, opened, after, hlog, -, hopen, -, -, hafter⟩, -⟩ := hfail _ he
  exact ⟨hnd, he, by decide +kernel, by decide +kernel, hnested, hadded, before, p, opened, after, hlog,
    hopen, hafter⟩

end Compiler

end BuildPlan
