import BuildPlan.Proofs.Compiler.Translation
import BuildPlan.Proofs.Plan.Credentials

/-!
# Compiling with other credentials

If the credentials in a registry are changed to those of a store, then what is compiled from it has the
credentials changed in the same way, and is the same otherwise: no credentials are looked at on the way,
and none are reported (`Compiler.compileAll_withCredentials`).
-/

namespace BuildPlan

/-- The progress of a project with the credentials of the store. -/
def Resolution.withCredentials (store : CredentialStore) : Resolution → Resolution
  | .resolved plan => .resolved (plan.withCredentials store)
  | state => state

/-- The entry with the credentials of the store. -/
def RegistryEntry.withCredentials (store : CredentialStore) (e : RegistryEntry) : RegistryEntry :=
  { config := e.config.withCredentials store, state := e.state.withCredentials store }

/-- The registry with the credentials of the store. -/
def Registry.withCredentials (store : CredentialStore) (r : Registry) : Registry :=
  { r with entries := r.entries.map (RegistryEntry.withCredentials store) }

/-- The outcome with the credentials of the store in the registry; its result is changed by a function. -/
def Outcome.withCredentials {ε α : Type} (store : CredentialStore) (change : α → α) (o : Outcome ε α) :
    Outcome ε α :=
  { result := o.result.map change, registry := o.registry.withCredentials store, events := o.events }

/-! ### Registries -/

namespace Registry

theorem fresh_withCredentials (store : CredentialStore) (configs : List ProjectConfig) :
    (fresh configs).withCredentials store =
      fresh (configs.map (ProjectConfig.withCredentials store)) := by
  have hnames : ∀ p : ProjectConfig, (p.withCredentials store).name = p.name := fun _ => rfl
  simp [fresh, withCredentials, RegistryEntry.withCredentials, Resolution.withCredentials,
    Function.comp_def, hnames]

end Registry

/-- Projects and plans get the credentials of the store, and all events are compared. -/
def Translation.credentials (store : CredentialStore) : Translation where
  config := ProjectConfig.withCredentials store
  plan := ProjectPlan.withCredentials store
  master := MasterPlan.withCredentials store
  compares _ := true
  name_config _ := rfl
  dependent_config _ := rfl
  workers_config _ := rfl
  arrange_config _ _ := rfl
  schedulers_plan _ := rfl
  master_ofPlans := MasterPlan.withCredentials_ofPlans store
  schedulers_master _ := rfl
  length_builders_master _ := List.length_map _

theorem Registry.withCredentials_eq (store : CredentialStore) (r : Registry) :
    r.withCredentials store = (Translation.credentials store).registry r := by
  have hentry : RegistryEntry.withCredentials store = (Translation.credentials store).entry := by
    funext e
    obtain ⟨p, s⟩ := e
    cases s <;> rfl
  unfold withCredentials
  rw [hentry]
  rfl

namespace Compiler

/-! ### An assembly -/

theorem map_name_withCredentials (store : CredentialStore) (builders : List Builder) :
    (builders.map (Builder.withCredentials store)).map Builder.name = builders.map Builder.name := by
  rw [List.map_map]
  rfl

theorem notifier_withCredentials (c : Compiler) (store : CredentialStore) (p : ProjectConfig)
    (builders : List Builder) :
    c.notifier (p.withCredentials store) (builders.map (Builder.withCredentials store)) =
      c.notifier p builders := by
  -- a request names builders and addresses, none of which carries credentials
  have hrequest : notifierRequest (p.withCredentials store)
      (builders.map (Builder.withCredentials store)) = notifierRequest p builders := by
    unfold notifierRequest
    rw [map_name_withCredentials]
    rfl
  unfold notifier
  rw [hrequest]
  rfl

theorem builders_withCredentials (store : CredentialStore) (p : ProjectConfig) (pipeline : Pipeline) :
    (p.withCredentials store).workers.map
        (Toolchain.builder (p.withCredentials store) (pipeline.withCredentials store)) =
      (p.workers.map (Toolchain.builder p pipeline)).map (Builder.withCredentials store) := by
  rw [List.map_map]
  rfl

theorem planWith_withCredentials (c : Compiler) (store : CredentialStore) (p : ProjectConfig)
    (parents : Except CompileError (List Scheduler)) :
    c.planWith (p.withCredentials store) parents =
      (c.planWith p parents).map (ProjectPlan.withCredentials store) := by
  cases parents with
  | error e => rfl
  | ok parents =>
    show (c.toolchain.builders (p.withCredentials store) >>= _) =
      (c.toolchain.builders p >>= _).map _
    unfold Toolchain.builders
    rw [Toolchain.pipeline_withCredentials]
    cases c.toolchain.pipeline p with
    | error e => rfl
    | ok pipeline =>
      have hb := builders_withCredentials store p pipeline
      have hn := c.notifier_withCredentials store p (p.workers.map (Toolchain.builder p pipeline))
      rw [← hb] at hn
      show Except.ok (ProjectPlan.mk _ _ _ _) = Except.ok (ProjectPlan.mk _ _ _ _)
      rw [hn, hb]
      rfl

theorem productEvents_withCredentials (c : Compiler) (store : CredentialStore) (p : ProjectConfig) :
    c.productEvents (p.withCredentials store) = c.productEvents p := by
  unfold productEvents
  rw [Toolchain.pipeline_withCredentials]
  cases c.toolchain.pipeline p with
  | error e => rfl
  | ok pipeline =>
    have hevents : builderEvents (p.withCredentials store) (pipeline.withCredentials store) =
        builderEvents p pipeline := by
      simp [builderEvents, pipelineEvents, Pipeline.withCredentials, ProjectConfig.withCredentials]
    show builderEvents _ (pipeline.withCredentials store) ++ _ = _
    dsimp only
    rw [hevents, builders_withCredentials, notifier_withCredentials]

/-! ### Compilations -/

/-- No credentials are looked at in an assembly. -/
theorem mirrors_withCredentials (c : Compiler) (store : CredentialStore) (p : ProjectConfig) :
    c.Mirrors c (.credentials store) p where
  knowsWorkerOf := rfl
  openingEvents := rfl
  planWith _ parents := c.planWith_withCredentials store p parents
  productEvents _ := congrArg _ (c.productEvents_withCredentials store p)

/-- All projects of a registry compile in the same way with other credentials. -/
theorem compileAll_withCredentials (c : Compiler) (store : CredentialStore) (r : Registry) :
    c.compileAll (r.withCredentials store) =
      (c.compileAll r).withCredentials store (MasterPlan.withCredentials store) := by
  have hsame : (Translation.credentials store).Relates (MasterPlan.withCredentials store)
      (c.compileAll r) (c.compileAll ((Translation.credentials store).registry r)) :=
    Mirrors.compileAll fun _ p _ => c.mirrors_withCredentials store p
  unfold Outcome.withCredentials
  rw [Registry.withCredentials_eq, Registry.withCredentials_eq, ← hsame.result, ← hsame.registry,
    ← hsame.events_eq fun _ => rfl]

end Compiler

end BuildPlan
