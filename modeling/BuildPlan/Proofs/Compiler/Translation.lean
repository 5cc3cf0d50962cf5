import BuildPlan.Proofs.Compiler.Batch

/-!
# Compilations side by side

A translation changes configurations and plans in what no resolution goes by, and says which events are
compared.  If a second compiler does to the translation of each project what the first does to the project
(`Compiler.Mirrors`), then it does to the translation of a registry what the first does to the registry:
projects are resolved in the same order, with translated plans or the same errors, and the events that are
compared are the same (`Compiler.Mirrors.compileAll`).
-/

namespace BuildPlan

/-- A change of configurations, of plans and of what is installed that leaves alone what others go by:
names, parents, workers, schedulers and the number of builders. -/
structure Translation where
  config : ProjectConfig → ProjectConfig
  plan : ProjectPlan → ProjectPlan
  master : MasterPlan → MasterPlan
  /-- Whether an event is compared. -/
  compares : Event → Bool
  name_config (p : ProjectConfig) : (config p).name = p.name
  dependent_config (p : ProjectConfig) : (config p).schedule.dependent = p.schedule.dependent
  workers_config (p : ProjectConfig) : (config p).workers = p.workers
  arrange_config (p : ProjectConfig) (parents : Except CompileError (List Scheduler)) :
    (config p).arrange parents = p.arrange parents
  schedulers_plan (p : ProjectPlan) : (plan p).schedulers = p.schedulers
  master_ofPlans (plans : List ProjectPlan) :
    master (.ofPlans plans) = .ofPlans (plans.map plan)
  schedulers_master (m : MasterPlan) : (master m).schedulers = m.schedulers
  length_builders_master (m : MasterPlan) : (master m).builders.length = m.builders.length

namespace Translation

variable (t : Translation)

/-- The progress of a project, translated. -/
def resolution : Resolution → Resolution
  | .resolved plan => .resolved (t.plan plan)
  | state => state

/-- The entry of a registry, translated. -/
def entry (e : RegistryEntry) : RegistryEntry :=
  { config := t.config e.config, state := t.resolution e.state }

/-- The registry, translated. -/
def registry (r : Registry) : Registry :=
  { r with entries := r.entries.map t.entry }

/-! ### Registries -/

theorem names_registry (r : Registry) : (t.registry r).names = r.names := rfl

theorem get?_registry (r : Registry) (name : String) :
    (t.registry r).get? name = (r.get? name).map t.entry := by
  have hname : ∀ e : RegistryEntry, (t.entry e).config.name = e.config.name :=
    fun e => t.name_config e.config
  show (r.entries.map t.entry).find? _ = _
  rw [List.find?_map]
  simp only [Function.comp_def, hname]
  rfl

theorem state?_registry (r : Registry) (name : String) :
    (t.registry r).state? name = (r.state? name).map t.resolution := by
  unfold Registry.state?
  rw [get?_registry, Option.map_map, Option.map_map]
  rfl

theorem plans_registry (r : Registry) : (t.registry r).plans = r.plans.map t.plan := by
  have hplan : ∀ n, (t.registry r).plan? n = (r.plan? n).map t.plan := by
    intro n
    unfold Registry.plan?
    rw [state?_registry]
    cases r.state? n with
    | none => rfl
    | some s => cases s <;> rfl
  unfold Registry.plans
  rw [List.map_filterMap]
  simp only [hplan]
  rfl

theorem setState_map_entry (name : String) (s : Resolution) (es : List RegistryEntry) :
    Registry.setState name (t.resolution s) (es.map t.entry) =
      (Registry.setState name s es).map t.entry := by
  induction es with
  | nil => rfl
  | cons e rest ih =>
    rw [List.map_cons, Registry.setState, Registry.setState]
    have hname : (t.entry e).config.name = e.config.name := t.name_config e.config
    by_cases he : e.config.name = name
    · rw [if_pos he, if_pos (hname.trans he)]
      rfl
    · rw [if_neg he, if_neg (hname ▸ he), ih, List.map_cons]

theorem enter_registry (r : Registry) (name : String) :
    (t.registry r).enter name = t.registry (r.enter name) :=
  congrArg (fun es => Registry.mk es r.order r.resolvedNames (r.stack ++ [name]))
    (t.setState_map_entry name .inProgress r.entries)

theorem leave_registry (r : Registry) (name : String) (result : Except CompileError ProjectPlan) :
    (t.registry r).leave name (result.map t.plan) = t.registry (r.leave name result) := by
  -- the order, the resolved names and the stack hold no project data, so only the entries are translated
  cases result with
  | ok plan =>
    exact congrArg (fun es => Registry.mk es r.order (r.resolvedNames ++ [name]) r.stack.dropLast)
      (t.setState_map_entry name (.resolved plan) r.entries)
  | error e =>
    exact congrArg (fun es => Registry.mk es r.order r.resolvedNames r.stack.dropLast)
      (t.setState_map_entry name .unresolved r.entries)

/-! ### Outcomes -/

/-- The second outcome is that of the first run, translated; results are changed by a function. -/
structure Relates {α β : Type} (change : α → β) (o : Outcome Event α) (o' : Outcome Event β) : Prop where
  result : o'.result = o.result.map change
  registry : o'.registry = t.registry o.registry
  events : o'.events.filter t.compares = o.events.filter t.compares

variable {t}

theorem Relates.andThen {α β γ δ : Type} {f : α → β} {g : γ → δ} {o : Outcome Event α}
    {o' : Outcome Event β} {next : Registry → Outcome Event γ} {next' : Registry → Outcome Event δ}
    (h : t.Relates f o o') (hnext : t.Relates g (next o.registry) (next' (t.registry o.registry))) :
    t.Relates g (o.andThen next) (o'.andThen next') := by
  obtain ⟨result, r, events⟩ := o
  obtain ⟨result', r', events'⟩ := o'
  obtain ⟨rfl, rfl, hevents⟩ := h
  cases result with
  | error e => exact ⟨rfl, rfl, hevents⟩
  | ok a =>
    refine ⟨hnext.result, hnext.registry, ?_⟩
    show List.filter _ (events' ++ _) = List.filter _ (events ++ _)
    rw [List.filter_append, List.filter_append, hnext.events]
    exact congrArg (· ++ _) hevents

/-- If all events are compared, then they are the same. -/
theorem Relates.events_eq {α β : Type} {f : α → β} {o : Outcome Event α} {o' : Outcome Event β}
    (h : t.Relates f o o') (hall : ∀ event, t.compares event = true) : o'.events = o.events := by
  have hfilter : ∀ events : List Event, events.filter t.compares = events :=
    fun events => List.filter_eq_self.mpr fun event _ => hall event
  rw [← hfilter o'.events, h.events, hfilter]

/-! ### Nothing is translated -/

/-- Nothing is changed, and some of the events are compared. -/
def unchanged (compares : Event → Bool) : Translation where
  config := id
  plan := id
  master := id
  compares := compares
  name_config _ := rfl
  dependent_config _ := rfl
  workers_config _ := rfl
  arrange_config _ _ := rfl
  schedulers_plan _ := rfl
  master_ofPlans _ := by rw [List.map_id, id]
  schedulers_master _ := rfl
  length_builders_master _ := rfl

theorem registry_unchanged (compares : Event → Bool) (r : Registry) :
    (unchanged compares).registry r = r := by
  have hentry : (unchanged compares).entry = id := by
    funext e
    obtain ⟨p, s⟩ := e
    cases s <;> rfl
  simp only [registry, hentry, List.map_id]

/-- If nothing is changed and all events are compared, then the outcomes are the same. -/
theorem Relates.eq_of_unchanged {α : Type} {o o' : Outcome Event α}
    (h : (unchanged fun _ => true).Relates id o o') : o' = o := by
  obtain ⟨result, r, events⟩ := o
  obtain ⟨result', r', events'⟩ := o'
  have he : events' = events := h.events_eq fun _ => rfl
  obtain ⟨rfl, rfl, -⟩ := h
  rw [he, registry_unchanged]
  cases result <;> rfl

end Translation

namespace Compiler

/-- The second compiler does to the translation of a project what the first does to the project. -/
structure Mirrors (c c' : Compiler) (t : Translation) (p : ProjectConfig) : Prop where
  knowsWorkerOf : c'.knowsWorkerOf (t.config p) = c.knowsWorkerOf p
  openingEvents : (c'.openingEvents (t.config p)).filter t.compares =
    (c.openingEvents p).filter t.compares
  planWith : c.knowsWorkerOf p → ∀ parents,
    c'.planWith (t.config p) parents = (c.planWith p parents).map t.plan
  productEvents : c.knowsWorkerOf p →
    (c'.productEvents (t.config p)).filter t.compares = (c.productEvents p).filter t.compares

namespace Mirrors

variable {c c' : Compiler} {t : Translation} {p : ProjectConfig}

theorem eventsWith (h : c.Mirrors c' t p) (hw : c.knowsWorkerOf p)
    (parents : Except CompileError (List Scheduler)) :
    (c'.eventsWith (t.config p) parents).filter t.compares =
      (c.eventsWith p parents).filter t.compares := by
  -- the closing line tells no more of a plan than that there is one
  have hclosing : closingEvent (t.config p) (c'.planWith (t.config p) parents) =
      closingEvent p (c.planWith p parents) := by
    rw [h.planWith hw]
    cases c.planWith p parents <;> simp [Except.map, closingEvent, t.name_config]
  unfold Compiler.eventsWith
  rw [hclosing, t.arrange_config]
  cases parents with
  | error e => rfl
  | ok parents =>
    simp only [Except.isOk, Except.toBool, if_true, List.filter_append]
    rw [h.productEvents hw]

/-- A translated project is resolved as the project is. -/
theorem resolve {r : Registry} (h : ∀ n p, r.config? n = some p → c.Mirrors c' t p) (name : String) :
    t.Relates t.plan (c.resolve r name) (c'.resolve (t.registry r) name) := by
  have entry : ∀ {r : Registry} {n : String} {e : RegistryEntry}, r.get? n = some e →
      (t.registry r).get? n = some (t.entry e) := by
    intro r n e he
    rw [t.get?_registry, he, Option.map_some]
  induction r, name using c.resolve_induction with
  | unknown r name he =>
    have he' : (t.registry r).get? name = none := by rw [t.get?_registry, he, Option.map_none]
    rw [resolve_of_none c he, resolve_of_none c' he']
    exact ⟨rfl, rfl, rfl⟩
  | resolved r name p plan he =>
    rw [resolve_of_resolved c he, resolve_of_resolved c' (entry he)]
    exact ⟨rfl, rfl, rfl⟩
  | underWay r name p he =>
    rw [resolve_of_inProgress c he, resolve_of_inProgress c' (entry he)]
    exact ⟨rfl, rfl, rfl⟩
  | noWorker r name p he hw =>
    have hp := h name p (Registry.config?_of_get? he)
    rw [resolve_of_noWorker he hw, resolve_of_noWorker (entry he) (hp.knowsWorkerOf.trans hw),
      t.workers_config, t.name_config]
    exact ⟨rfl, rfl, rfl⟩
  | root r name p he hw hd =>
    have hp := h name p (Registry.config?_of_get? he)
    rw [resolve_of_root he hw hd, resolve_of_root (entry he) (hp.knowsWorkerOf.trans hw)
      ((t.dependent_config p).trans hd)]
    refine ⟨hp.planWith hw _, ?_, ?_⟩
    · show Registry.leave _ _ (c'.planWith _ _) = _
      rw [hp.planWith hw, t.enter_registry, t.leave_registry]
    · simp only [List.filter_cons, List.filter_append, hp.openingEvents, hp.eventsWith hw]
  | child r name p parent he hw hd ih =>
    have hp := h name p (Registry.config?_of_get? he)
    -- entering changes no configuration, so the hypothesis carries over to the resolution of the parent
    have hparent := ih fun n q hq => h n q (by rwa [Registry.config?_enter] at hq)
    rw [← t.enter_registry] at hparent
    rw [resolve_of_dependent he hw hd, resolve_of_dependent (entry he) (hp.knowsWorkerOf.trans hw)
      ((t.dependent_config p).trans hd)]
    -- the parent's plan is translated, and its schedulers are the same
    have hschedulers :
        (c'.resolve ((t.registry r).enter name) parent).result.map ProjectPlan.schedulers =
          (c.resolve (r.enter name) parent).result.map ProjectPlan.schedulers := by
      rw [hparent.result]
      cases (c.resolve (r.enter name) parent).result with
      | error e => rfl
      | ok plan => exact congrArg Except.ok (t.schedulers_plan plan)
    dsimp only
    rw [hschedulers]
    refine ⟨hp.planWith hw _, ?_, ?_⟩
    · show Registry.leave _ _ (c'.planWith _ _) = _
      rw [hp.planWith hw, hparent.registry, t.leave_registry]
    · simp only [List.filter_cons, List.filter_append, hp.openingEvents, hp.eventsWith hw,
        hparent.events]

theorem resolveEach {r : Registry} (h : ∀ n p, r.config? n = some p → c.Mirrors c' t p)
    (names : List String) :
    t.Relates id (c.resolveEach names r) (c'.resolveEach names (t.registry r)) := by
  induction names generalizing r with
  | nil => exact ⟨rfl, rfl, rfl⟩
  | cons name rest ih =>
    obtain ⟨added, hr⟩ := c.exists_resolves r name
    rw [resolveEach_cons, resolveEach_cons]
    exact (Mirrors.resolve h name).andThen (ih (hr.config_eq ▸ h))

/-- A translated registry compiles as the registry does. -/
theorem compileAll {r : Registry} (h : ∀ n p, r.config? n = some p → c.Mirrors c' t p) :
    t.Relates t.master (c.compileAll r) (c'.compileAll (t.registry r)) := by
  have heach := Mirrors.resolveEach h r.names
  unfold Compiler.compileAll
  rw [t.names_registry]
  dsimp only
  rw [heach.result]
  cases (c.resolveEach r.names r).result with
  | error e => exact ⟨rfl, heach.registry, heach.events⟩
  | ok u =>
    dsimp only [Except.map, id]
    have hmaster : MasterPlan.ofPlans (c'.resolveEach r.names (t.registry r)).registry.plans =
        t.master (.ofPlans (c.resolveEach r.names r).registry.plans) := by
      rw [heach.registry, t.plans_registry, t.master_ofPlans]
    rw [hmaster]
    refine ⟨rfl, heach.registry, ?_⟩
    rw [List.filter_append, List.filter_append, heach.events, t.schedulers_master,
      t.length_builders_master]

end Mirrors

end Compiler

end BuildPlan
