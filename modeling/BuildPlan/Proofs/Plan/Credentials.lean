import BuildPlan.Proofs.Plan.Installation
import BuildPlan.Toolchain

/-!
# Credentials in plans

Credentials stand in the checkouts of Subversion repositories and nowhere else in a plan.  They can be
changed to those of any store (`withCredentials`); with the empty store they are taken out.  A pipeline has
one checkout, which has the credentials of the project, and if these are changed nothing else changes.
-/

namespace BuildPlan

/-! ### Changing credentials -/

/-- The source with the credentials that the store has for its repository, if it can have any. -/
def CheckoutSource.withCredentials (store : CredentialStore) : CheckoutSource → CheckoutSource
  | .svn url _ => .svn url (store url)
  | source => source

/-- The step with the credentials of the store, if it is a checkout. -/
def Step.withCredentials (store : CredentialStore) (s : Step) : Step :=
  match s.kind with
  | .checkout c => { s with kind := .checkout { c with source := c.source.withCredentials store } }
  | _ => s

/-- The pipeline with the credentials of the store. -/
def Pipeline.withCredentials (store : CredentialStore) (p : Pipeline) : Pipeline :=
  { p with steps := p.steps.map (Step.withCredentials store) }

/-- The builder with the credentials of the store. -/
def Builder.withCredentials (store : CredentialStore) (b : Builder) : Builder :=
  { b with pipeline := b.pipeline.withCredentials store }

/-- The plan with the credentials of the store. -/
def ProjectPlan.withCredentials (store : CredentialStore) (p : ProjectPlan) : ProjectPlan :=
  { p with builders := p.builders.map (Builder.withCredentials store) }

/-- The master plan with the credentials of the store. -/
def MasterPlan.withCredentials (store : CredentialStore) (m : MasterPlan) : MasterPlan :=
  { m with builders := m.builders.map (Builder.withCredentials store) }

/-- The project with the credentials that the store has for its repository. -/
def ProjectConfig.withCredentials (store : CredentialStore) (p : ProjectConfig) : ProjectConfig :=
  { p with credentials := store p.repository }

/-- Where the checkouts of a pipeline come from, in order. -/
def Pipeline.sources (p : Pipeline) : List CheckoutSource :=
  p.steps.filterMap fun step => step.kind.checkout?.map Checkout.source

variable {p : ProjectConfig} {pipeline : Pipeline}

theorem MasterPlan.withCredentials_ofPlans (store : CredentialStore) (plans : List ProjectPlan) :
    (ofPlans plans).withCredentials store = ofPlans (plans.map (ProjectPlan.withCredentials store)) := by
  unfold ofPlans
  rw [foldl_install, foldl_install]
  simp [withCredentials, ProjectPlan.withCredentials, List.flatMap_map, List.map_flatMap]

/-- The credentials of one store do not show those of another that were there before. -/
theorem MasterPlan.withCredentials_withCredentials (store other : CredentialStore) (m : MasterPlan) :
    (m.withCredentials other).withCredentials store = m.withCredentials store := by
  have hsource : ∀ s : CheckoutSource,
      (s.withCredentials other).withCredentials store = s.withCredentials store := by
    intro s
    cases s <;> rfl
  -- a checkout is the only step that holds a source
  have hstep : ∀ s : Step, (s.withCredentials other).withCredentials store = s.withCredentials store := by
    rintro ⟨kind, timeout, halt⟩
    cases kind with
    | checkout c => simp [Step.withCredentials, hsource]
    | shell command => rfl
    | test command => rfl
    | lint command => rfl
  simp [withCredentials, Builder.withCredentials, Pipeline.withCredentials, Function.comp_def, hstep]

/-! ### Pipelines of projects with other credentials -/

namespace Toolchain

theorem source_withCredentials (store : CredentialStore) (p : ProjectConfig) :
    source (p.withCredentials store) = (source p).map (CheckoutSource.withCredentials store) := by
  unfold source ProjectConfig.withCredentials
  dsimp only
  cases p.vcs with
  | svn => rfl
  | git => rfl
  | hg => rfl
  | bzr => rfl
  | cvs =>
    dsimp only
    cases splitLocator? p.repository <;> rfl

theorem pipeline_withCredentials (t : Toolchain) (store : CredentialStore) (p : ProjectConfig) :
    t.pipeline (p.withCredentials store) = (t.pipeline p).map (Pipeline.withCredentials store) := by
  unfold pipeline checkout
  rw [source_withCredentials]
  cases source p with
  | error e => rfl
  | ok s =>
    have hbuild : (t.buildSteps p).map (Step.withCredentials store) = t.buildSteps p := by
      simp [buildSteps, Step.withCredentials, Function.comp_def]
    have htest : (t.testSteps p).map (Step.withCredentials store) = t.testSteps p := by
      simp [testSteps, Step.withCredentials, Function.comp_def]
    have hlint : (lintSteps p).map (Step.withCredentials store) = lintSteps p := by
      simp [lintSteps, Step.withCredentials, Function.comp_def]
    show Except.ok (Pipeline.mk _) = Except.ok (Pipeline.mk (List.map _ (_ :: _ ++ _ ++ _)))
    rw [List.map_append, List.map_append, List.map_cons, hbuild, htest, hlint]
    rfl

/-- A pipeline has one checkout, from the source of the project. -/
theorem sources_of_pipeline {t : Toolchain} (h : t.pipeline p = .ok pipeline) :
    ∃ s, source p = .ok s ∧ pipeline.sources = [s] := by
  unfold Toolchain.pipeline checkout at h
  cases hs : source p with
  | error e =>
    rw [hs] at h
    cases h
  | ok s =>
    rw [hs] at h
    cases h
    refine ⟨s, rfl, ?_⟩
    simp [Pipeline.sources, buildSteps, testSteps, lintSteps, StepKind.checkout?,
      List.filterMap_append]

end Toolchain

end BuildPlan
