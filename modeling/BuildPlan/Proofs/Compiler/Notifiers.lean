import BuildPlan.Proofs.Compiler.Translation
import BuildPlan.Proofs.Notification.Addresses
import BuildPlan.Proofs.Plan.Installation

/-!
# Compiling with other notification services

A notification service decides which notifiers are installed, and nothing else: two compilations that
differ in the service resolve the same projects in the same order, with plans that are the same without
their notifiers.  The service is asked for projects with a known worker only, so never for no builders, and
a mail relay gives a notifier to just those projects that name a sender and recipients by well-formed
addresses (`compileAll_apart_from_notifiers`).
-/

namespace BuildPlan

/-! ### Plans without notifiers -/

/-- The plan without its notifier. -/
def ProjectPlan.silent (plan : ProjectPlan) : ProjectPlan :=
  { plan with notifier := none }

/-- The progress of a project, without the notifier of its plan. -/
def Resolution.silent : Resolution → Resolution
  | .resolved plan => .resolved plan.silent
  | state => state

/-- The master plan without its notifiers. -/
def MasterPlan.silent (m : MasterPlan) : MasterPlan :=
  { m with notifiers := [] }

/-- Whether the event tells that a notifier was refused. -/
def Event.isRefusal : Event → Bool
  | .notifierRefused _ _ _ _ => true
  | _ => false

theorem MasterPlan.silent_ofPlans (plans : List ProjectPlan) :
    (ofPlans plans).silent = ofPlans (plans.map ProjectPlan.silent) := by
  unfold ofPlans
  rw [foldl_install, foldl_install]
  simp [silent, ProjectPlan.silent, List.flatMap_map]

/-- Notifiers are taken out of the plans, and their refusals out of the events. -/
def Translation.silence : Translation :=
  { unchanged fun event => !event.isRefusal with
    plan := ProjectPlan.silent
    master := MasterPlan.silent
    schedulers_plan := fun _ => rfl
    master_ofPlans := MasterPlan.silent_ofPlans
    schedulers_master := fun _ => rfl
    length_builders_master := fun _ => rfl }

/-- The registry without the notifiers of its plans. -/
def Registry.silent (r : Registry) : Registry :=
  Translation.silence.registry r

theorem Registry.state?_silent (r : Registry) (name : String) :
    r.silent.state? name = (r.state? name).map Resolution.silent := by
  have hresolution : Translation.silence.resolution = Resolution.silent := by
    funext s
    cases s <;> rfl
  rw [← hresolution]
  exact Translation.silence.state?_registry r name

/-! ### What a mail relay gives -/

namespace ProjectConfig

/-- The project names a sender and recipients, by well-formed addresses only. -/
def HasAddresses (p : ProjectConfig) : Prop :=
  p.emailSender ≠ "" ∧ p.emailRecipients ≠ [] ∧
    ∀ address ∈ p.emailSender :: p.emailRecipients, isAddress address

instance (p : ProjectConfig) : Decidable p.HasAddresses :=
  inferInstanceAs (Decidable (_ ∧ _ ∧ _))

/-- What a mail relay makes of the project's addresses. -/
def relayNotifier (p : ProjectConfig) : MailNotifier where
  builderNames := p.builderNames
  sender := p.emailSender
  extraRecipients := p.emailRecipients
  relayHost := p.mailHost
  mode := .failing
  addLogs := true
  sendToInterestedUsers := true

theorem wantsNotifications_iff {p : ProjectConfig} :
    p.wantsNotifications ↔ p.emailSender ≠ "" ∧ p.emailRecipients ≠ [] := by
  simp [wantsNotifications]

end ProjectConfig

namespace Compiler

variable {c : Compiler} {r : Registry} {p : ProjectConfig} {name : String} {builders : List Builder}
  {service one two : NotifierService} {project sender : String} {recipients : List String}
  {e : NotifierError}

/-- The compiler with another notification service. -/
def withNotifiers (c : Compiler) (service : NotifierService) : Compiler :=
  { c with notifiers := service }

/-- A mail relay takes the request of a project by well-formed addresses. -/
theorem smtpService_eq_ok (hb : builders.map Builder.name = p.builderNames) (hw : p.workers ≠ [])
    (ha : ∀ address ∈ p.emailSender :: p.emailRecipients, isAddress address) :
    smtpService (notifierRequest p builders) = .ok p.relayNotifier := by
  rw [smtpService_eq_ok_iff]
  refine ⟨by simpa [notifierRequest, hb, ProjectConfig.builderNames] using hw,
    fun address hm => isAddress_iff.mp (ha address hm), ?_⟩
  rw [ProjectConfig.relayNotifier, ← hb]
  rfl

/-- A mail relay refuses the request of a project by other addresses. -/
theorem exists_smtpService_eq_error {address : String}
    (hm : address ∈ p.emailSender :: p.emailRecipients) (ha : ¬isAddress address) :
    ∃ e, smtpService (notifierRequest p builders) = .error e := by
  cases hs : smtpService (notifierRequest p builders) with
  | error e => exact ⟨e, rfl⟩
  | ok notifier =>
    obtain ⟨-, hgood, -⟩ := smtpService_eq_ok_iff.mp hs
    exact absurd (isAddress_iff.mpr (hgood address hm)) ha

/-- The notifier of a project that has builders, from a mail relay. -/
theorem notifier_of_relay (hb : builders.map Builder.name = p.builderNames) (hw : p.workers ≠ []) :
    ((c.withNotifiers smtpService).notifier p builders).1 =
      if p.HasAddresses then some p.relayNotifier else none := by
  unfold notifier withNotifiers
  dsimp only
  by_cases hwants : p.wantsNotifications
  · rw [if_pos hwants]
    obtain ⟨hsender, hrecipients⟩ := ProjectConfig.wantsNotifications_iff.mp hwants
    by_cases ha : ∀ address ∈ p.emailSender :: p.emailRecipients, isAddress address
    · rw [smtpService_eq_ok hb hw ha, if_pos ⟨hsender, hrecipients, ha⟩]
    · rw [if_neg fun h => ha h.2.2]
      obtain ⟨address, hm, hbad⟩ := not_forall₂.mp ha
      obtain ⟨e, he⟩ := exists_smtpService_eq_error hm hbad
      rw [he]
  · rw [if_neg hwants, if_neg fun h => hwants (ProjectConfig.wantsNotifications_iff.mpr ⟨h.1, h.2.1⟩)]

theorem smtpService_ne_noBuilders {request : NotifierRequest} (h : request.builderNames ≠ []) :
    smtpService request ≠ .error .noBuilders := by
  rw [ne_eq, smtpService_eq_error_iff]
  rintro (⟨hnil, -⟩ | ⟨-, _, -, he⟩)
  · exact h hnil
  · cases he

/-! ### Services side by side -/

/-- The compiler whose service refuses every request. -/
def refusing (c : Compiler) : Compiler :=
  c.withNotifiers fun _ => .error .noBuilders

/-- Two services are the same to a compiler, up to a translation, if their answers are for every pipeline
of the project. -/
theorem mirrors_of_notifier {t : Translation} (hconfig : t.config p = p)
    (h : (c.withNotifiers one).knowsWorkerOf p → ∀ schedulers pipeline,
      let builders := p.workers.map (Toolchain.builder p pipeline)
      let given := (c.withNotifiers one).notifier p builders
      let given' := (c.withNotifiers two).notifier p builders
      ProjectPlan.mk p.name schedulers builders given'.1 =
          t.plan (.mk p.name schedulers builders given.1) ∧
        given'.2.filter t.compares = given.2.filter t.compares) :
    (c.withNotifiers one).Mirrors (c.withNotifiers two) t p where
  knowsWorkerOf := by rw [hconfig]; rfl
  openingEvents := by rw [hconfig]; rfl
  planWith hw parents := by
    rw [hconfig]
    cases parents with
    | error e => rfl
    | ok parents =>
      show (c.toolchain.builders p >>= _) = (c.toolchain.builders p >>= _).map _
      unfold Toolchain.builders
      cases c.toolchain.pipeline p with
      | error e => rfl
      | ok pipeline => exact congrArg Except.ok (h hw _ pipeline).1
  productEvents hw := by
    have htoolchain : ∀ service, (c.withNotifiers service).toolchain = c.toolchain := fun _ => rfl
    unfold productEvents
    rw [hconfig, htoolchain, htoolchain]
    cases c.toolchain.pipeline p with
    | error e => rfl
    | ok pipeline =>
      dsimp only
      rw [List.filter_append, List.filter_append, (h hw [] pipeline).2]

/-- What is reported of a notifier does not depend on the service, but for its refusal. -/
theorem filter_notifier (c : Compiler) (service : NotifierService) :
    ((c.withNotifiers service).notifier p builders).2.filter Translation.silence.compares =
      if p.wantsNotifications then []
      else [.notifierSkipped p.name p.emailSender p.emailRecipients] := by
  unfold notifier
  split
  · split <;> rfl
  · rfl

/-- Without its notifiers, a plan is what it is if the service refuses every request. -/
theorem mirrors_refusing (c : Compiler) (p : ProjectConfig) :
    c.Mirrors c.refusing .silence p := by
  show (c.withNotifiers c.notifiers).Mirrors (c.withNotifiers _) .silence p
  refine mirrors_of_notifier rfl fun _ schedulers pipeline => ?_
  intro builders given given'
  have hnone : given'.1 = none := by
    unfold given' notifier
    split <;> rfl
  constructor
  · rw [hnone]
    rfl
  · exact (c.filter_notifier _).trans (c.filter_notifier _).symm

/-- Services that give the same answers to requests for some builders are the same to a compiler. -/
theorem mirrors_withNotifiers (c : Compiler)
    (h : ∀ request, request.builderNames ≠ [] → one request = two request) (p : ProjectConfig) :
    (c.withNotifiers one).Mirrors (c.withNotifiers two) (.unchanged fun _ => true) p := by
  refine mirrors_of_notifier rfl fun hw schedulers pipeline => ?_
  intro builders given given'
  -- a known worker gives a builder, so the request is one on which both services agree
  have hasked := h (notifierRequest p builders) (by simpa [notifierRequest, builders] using workers_ne_nil hw)
  have hsame : given' = given := by
    unfold given given' notifier withNotifiers
    dsimp only
    rw [hasked]
  rw [hsame]
  exact ⟨rfl, rfl⟩

/-! ### Refusals -/

/-- A refusal is the answer of the service to a request for the builders of a project, of which there are
some. -/
theorem exists_request_of_productEvents (hw : c.knowsWorkerOf p)
    (h : .notifierRefused project sender recipients e ∈ c.productEvents p) :
    ∃ request, request.builderNames ≠ [] ∧ c.notifiers request = .error e := by
  unfold productEvents at h
  cases hp : c.toolchain.pipeline p with
  | error e => simp [hp] at h
  | ok pipeline =>
    simp only [hp, List.mem_append, builderEvents, pipelineEvents] at h
    simp only [List.mem_singleton, List.mem_map, reduceCtorEq, and_false, exists_false, or_self,
      false_or] at h
    refine ⟨notifierRequest p (p.workers.map (Toolchain.builder p pipeline)),
      by simpa [notifierRequest] using workers_ne_nil hw, ?_⟩
    unfold notifier at h
    split at h
    · split at h
      · cases h
      · next e' he =>
        cases List.mem_singleton.mp h
        exact he
    · simp at h

theorem exists_request_of_eventsWith (hw : c.knowsWorkerOf p)
    {parents : Except CompileError (List Scheduler)}
    (h : .notifierRefused project sender recipients e ∈ c.eventsWith p parents) :
    ∃ request, request.builderNames ≠ [] ∧ c.notifiers request = .error e := by
  unfold eventsWith at h
  simp only [List.mem_append, List.mem_singleton] at h
  obtain (h | h) | h := h
  · cases parents <;> simp [ProjectConfig.arrange] at h
  · split at h
    · exact exists_request_of_productEvents hw h
    · cases h
  · cases hplan : c.planWith p parents <;> simp [hplan, closingEvent] at h

theorem refusal_notMem_openingEvents (c : Compiler) (p : ProjectConfig) :
    .notifierRefused project sender recipients e ∉ c.openingEvents p := by
  unfold openingEvents
  split <;> simp

/-- Whoever refuses a notifier in a resolution has been asked for some builders. -/
theorem exists_request_of_resolve
    (h : .notifierRefused project sender recipients e ∈ (c.resolve r name).events) :
    ∃ request, request.builderNames ≠ [] ∧ c.notifiers request = .error e := by
  induction r, name using c.resolve_induction with
  | unknown r name he => simp [resolve_of_none c he] at h
  | resolved r name p plan he => simp [resolve_of_resolved c he] at h
  | underWay r name p he => simp [resolve_of_inProgress c he] at h
  | noWorker r name p he hw => simp [resolve_of_noWorker he hw] at h
  | root r name p he hw hd =>
    rw [resolve_of_root he hw hd] at h
    simp only [List.mem_cons, reduceCtorEq, false_or, List.mem_append] at h
    rcases h with h | h
    · exact absurd h (c.refusal_notMem_openingEvents p)
    · exact exists_request_of_eventsWith hw h
  | child r name p parent he hw hd ih =>
    rw [resolve_of_dependent he hw hd] at h
    simp only [List.mem_cons, reduceCtorEq, false_or, List.mem_append] at h
    rcases h with h | h | h
    · exact absurd h (c.refusal_notMem_openingEvents p)
    · exact ih h
    · exact exists_request_of_eventsWith hw h

theorem exists_request_of_resolveEach {names : List String}
    (h : .notifierRefused project sender recipients e ∈ (c.resolveEach names r).events) :
    ∃ request, request.builderNames ≠ [] ∧ c.notifiers request = .error e := by
  induction names generalizing r with
  | nil => cases h
  | cons name rest ih =>
    rw [resolveEach_cons, Outcome.andThen] at h
    split at h
    · rcases List.mem_append.mp h with h | h
      · exact exists_request_of_resolve h
      · exact ih h
    · exact exists_request_of_resolve h

theorem exists_request_of_compileAll
    (h : .notifierRefused project sender recipients e ∈ (c.compileAll r).events) :
    ∃ request, request.builderNames ≠ [] ∧ c.notifiers request = .error e := by
  unfold compileAll at h
  dsimp only at h
  split at h
  · simp only [List.mem_append, List.mem_singleton, reduceCtorEq, or_false] at h
    exact exists_request_of_resolveEach h
  · exact exists_request_of_resolveEach h

/-! ### Compiling with other services -/

/-- Two results that are the same after a change of their values are the same error or two values. -/
theorem except_cases_of_map_eq {ε α β : Type} {f : α → β} {x y : Except ε α} (h : x.map f = y.map f) :
    (∃ e, x = .error e ∧ y = .error e) ∨ ∃ a b, x = .ok a ∧ y = .ok b ∧ f a = f b := by
  cases x with
  | error e =>
    cases y with
    | error e' => exact Or.inl ⟨e, rfl, congrArg Except.error (Except.error.inj h).symm⟩
    | ok b => cases h
  | ok a =>
    cases y with
    | error e' => cases h
    | ok b => exact Or.inr ⟨a, b, rfl, rfl, Except.ok.inj h⟩

/-- A compilation, with its notifiers taken out, is the one in which every request is refused. -/
theorem compileAll_refusing (c : Compiler) (r : Registry) :
    Translation.silence.Relates MasterPlan.silent (c.compileAll r) (c.refusing.compileAll r.silent) :=
  Mirrors.compileAll fun _ p _ => c.mirrors_refusing p

theorem compileAll_congr_notifiers (c : Compiler)
    (h : ∀ request, request.builderNames ≠ [] → one request = two request) (r : Registry) :
    (c.withNotifiers one).compileAll r = (c.withNotifiers two).compileAll r := by
  have hsame := Mirrors.compileAll (r := r) fun _ p _ => c.mirrors_withNotifiers h p
  rw [Translation.registry_unchanged] at hsame
  exact hsame.eq_of_unchanged.symm

/-- The notifier of a plan, from a mail relay. -/
theorem notifier_of_plans {plan : ProjectPlan} (h : (c.withNotifiers smtpService).Plans p plan) :
    plan.notifier = if p.HasAddresses then some p.relayNotifier else none := by
  obtain ⟨hw, parents, hplan⟩ := h
  obtain ⟨pipeline, -, rfl⟩ := exists_pipeline_of_planWith hplan
  exact notifier_of_relay (by simp [ProjectConfig.builderNames, Toolchain.builder]) (workers_ne_nil hw)

/-- With a mail relay, the notifiers are those of the projects with addresses, in the order in which the
projects have been resolved. -/
theorem Settled.notifiers_of_relay {master : MasterPlan} (h : (c.withNotifiers smtpService).Settled r)
    (hm : ((c.withNotifiers smtpService).compileAll r).result = .ok master) :
    ∃ order : List ProjectConfig, order.Perm (r.entries.map RegistryEntry.config) ∧
      order.map ProjectConfig.name =
        ((c.withNotifiers smtpService).compileAll r).registry.resolvedNames ∧
      master.notifiers =
        (order.filter fun p => p.HasAddresses).map ProjectConfig.relayNotifier := by
  obtain ⟨order, hperm, hnames, hplans⟩ := h.exists_projects hm
  refine ⟨order, hperm, hnames, ?_⟩
  obtain ⟨-, rfl⟩ := compileAll_eq_ok_iff.mp hm
  rw [MasterPlan.notifiers_ofPlans]
  generalize ((c.withNotifiers smtpService).compileAll r).registry.plans = plans at hplans
  clear hperm hnames hm
  induction hplans with
  | nil => rfl
  | @cons p plan order plans hp _ ih =>
    rw [List.flatMap_cons, notifier_of_plans hp, ih]
    by_cases ha : p.HasAddresses
    · rw [if_pos ha, List.filter_cons_of_pos (by simpa using ha)]
      rfl
    · rw [if_neg ha, List.filter_cons_of_neg (by simpa using ha)]
      rfl

/-- **Notification does not affect the rest.**  The projects of a list are compiled with two notification
services: both compilations fail with the same error, or both succeed with the same schedulers and the
same builders; the same projects have been resolved in the same order, with plans that differ in their
notifiers at most, and the same is reported but for refusals.  What a service says about no builders makes
no difference.  A mail relay never has to refuse a request for want of builders, and the notifiers that it
gives are those of the projects with addresses, in the order of resolution. -/
theorem compileAll_apart_from_notifiers (c : Compiler) (configs : List ProjectConfig)
    (h : (configs.map ProjectConfig.name).Nodup) :
    ∃ r, Registry.ofConfigs configs = .ok r ∧
      (∀ one two : NotifierService,
        let o := (c.withNotifiers one).compileAll r
        let o' := (c.withNotifiers two).compileAll r
        ((∃ e, o.result = .error e ∧ o'.result = .error e) ∨
          ∃ m m', o.result = .ok m ∧ o'.result = .ok m' ∧
            m.schedulers = m'.schedulers ∧ m.builders = m'.builders) ∧
        o.registry.resolvedNames = o'.registry.resolvedNames ∧
        (∀ name, (o.registry.state? name).map Resolution.silent =
          (o'.registry.state? name).map Resolution.silent) ∧
        (o.events.filter fun event => !event.isRefusal) =
          (o'.events.filter fun event => !event.isRefusal) ∧
        ((∀ request, request.builderNames ≠ [] → one request = two request) → o = o')) ∧
      let o := (c.withNotifiers smtpService).compileAll r
      (∀ project sender recipients,
        .notifierRefused project sender recipients .noBuilders ∉ o.events) ∧
      ∀ m, o.result = .ok m → ∃ order : List ProjectConfig, order.Perm configs ∧
        order.map ProjectConfig.name = o.registry.resolvedNames ∧
        m.notifiers = (order.filter fun p => p.HasAddresses).map ProjectConfig.relayNotifier := by
  set r := Registry.fresh configs with hr
  refine ⟨r, Registry.ofConfigs_of_nodup h, fun one two => ?_, fun project sender recipients hmem => ?_,
    fun m hm => ?_⟩
  · -- both runs are compared with one in which every request is refused
    intro o o'
    have hone := (c.withNotifiers one).compileAll_refusing r
    have htwo := (c.withNotifiers two).compileAll_refusing r
    have hresult : o.result.map MasterPlan.silent = o'.result.map MasterPlan.silent :=
      hone.result.symm.trans htwo.result
    have hregistry : o.registry.silent = o'.registry.silent := hone.registry.symm.trans htwo.registry
    have hnames := congrArg Registry.resolvedNames hregistry
    refine ⟨?_, hnames, fun name => ?_, hone.events.symm.trans htwo.events,
      fun hsame => c.compileAll_congr_notifiers hsame r⟩
    · rcases except_cases_of_map_eq hresult with hfail | ⟨m, m', hm, hm', hsilent⟩
      · exact Or.inl hfail
      · have hschedulers := congrArg MasterPlan.schedulers hsilent
        have hbuilders := congrArg MasterPlan.builders hsilent
        exact Or.inr ⟨m, m', hm, hm', hschedulers, hbuilders⟩
    · rw [← Registry.state?_silent, ← Registry.state?_silent, hregistry]
  · obtain ⟨request, hne, hrefused⟩ := exists_request_of_compileAll hmem
    exact absurd hrefused (smtpService_ne_noBuilders hne)
  · have hset : (c.withNotifiers smtpService).Settled r := settled_fresh h
    obtain ⟨order, hperm, hnames, hnotifiers⟩ := hset.notifiers_of_relay hm
    rw [hr, Registry.configs_fresh] at hperm
    exact ⟨order, hperm, hnames, hnotifiers⟩

/-- A child with good addresses is declared in front of its parent, which has a recipient without an at
sign, and a third project has no sender.  The relay gives a notifier to the child only.  With a service that
refuses every request the builders are the same; with one that grants requests for no builders, and is a
relay otherwise, everything is. -/
theorem compileAll_one_with_addresses :
    let c := ofWorkers (.ofList ["w"])
    let app := { ProjectConfig.chained "app" (some "lib") with
      emailSender := "ci@host", emailRecipients := ["dev@host"] }
    let lib := { ProjectConfig.chained "lib" none with
      emailSender := "ci@host", emailRecipients := ["dev@host", "dev at host"] }
    let top := { ProjectConfig.chained "top" none with emailRecipients := ["dev@host"] }
    let lax : NotifierService := fun request =>
      if request.builderNames.isEmpty then .ok app.relayNotifier else smtpService request
    let deaf : NotifierService := fun _ => .error (.invalidAddress "nobody")
    ([app, lib, top].map ProjectConfig.name).Nodup ∧
    (∀ request, request.builderNames ≠ [] → lax request = smtpService request) ∧
    ∃ r m m', Registry.ofConfigs [app, lib, top] = .ok r ∧
      ((c.withNotifiers smtpService).compileAll r).result = .ok m ∧
      ((c.withNotifiers deaf).compileAll r).result = .ok m' ∧ m.builders = m'.builders ∧
      m.notifiers = [app.relayNotifier] ∧ m'.notifiers = [] ∧
      (c.withNotifiers lax).compileAll r = (c.withNotifiers smtpService).compileAll r := by
  intro c app lib top lax deaf
  have hnd : ([app, lib, top].map ProjectConfig.name).Nodup := by decide
  have hlax : ∀ request, request.builderNames ≠ [] → lax request = smtpService request :=
    fun request hne => if_neg (by simpa using hne)
  obtain ⟨r, hr, hservices, -⟩ := c.compileAll_apart_from_notifiers _ hnd
  cases hr.symm.trans (Registry.ofConfigs_of_nodup hnd)
  obtain ⟨hresults, -⟩ := hservices smtpService deaf
  obtain ⟨-, -, -, -, hsame⟩ := hservices lax smtpService
  have hrelay : (((c.withNotifiers smtpService).compileAll (.fresh [app, lib, top])).result.map
      MasterPlan.notifiers) = .ok [app.relayNotifier] := by decide +kernel
  have hdeaf : (((c.withNotifiers deaf).compileAll (.fresh [app, lib, top])).result.map
      MasterPlan.notifiers) = .ok [] := by decide +kernel
  rcases hresults with ⟨e, he, -⟩ | ⟨m, m', hm, hm', -, hbuilders⟩
  · rw [he] at hrelay
    cases hrelay
  · rw [hm] at hrelay
    rw [hm'] at hdeaf
    exact ⟨hnd, hlax, _, m, m', hr, hm, hm', hbuilders, Except.ok.inj hrelay, Except.ok.inj hdeaf,
      hsame hlax⟩

end Compiler

end BuildPlan
