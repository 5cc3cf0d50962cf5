import BuildPlan.Proofs.Configuration.Options
import BuildPlan.Proofs.Project.Locator
import BuildPlan.Proofs.Project.Plain

/-!
# Checkouts and their repositories

Each system has its own form of source, with other parts of the configuration in it, and CVS takes its
repository apart.  A checkout still tells the system and the whole text of the repository, and it fails
only where CVS finds no two parts (`Toolchain.checkout_keeps_repository`).
-/

namespace BuildPlan

/-! ### What a source tells -/

namespace CheckoutSource

/-- The system that the source is for. -/
def vcs : CheckoutSource → Vcs
  | .svn _ _ => .svn
  | .git _ _ => .git
  | .hg _ => .hg
  | .bzr _ => .bzr
  | .cvs _ _ _ => .cvs

/-- The text of the repository. -/
def repository : CheckoutSource → String
  | .svn url _ | .git url _ | .hg url | .bzr url => url
  | .cvs root module _ => root ++ "!" ++ module

/-- The branch, if there is a place for it. -/
def branch? : CheckoutSource → Option String
  | .git _ branch | .cvs _ _ branch => some branch
  | .svn _ _ | .hg _ | .bzr _ => none

/-- The credentials, which may be none, if there is a place for them. -/
def auth? : CheckoutSource → Option (Option Credentials)
  | .svn _ auth => some auth
  | .git _ _ | .hg _ | .bzr _ | .cvs _ _ _ => none

/-- What the source tells is what the project says. -/
structure Tells (s : CheckoutSource) (p : ProjectConfig) : Prop where
  vcs : s.vcs = p.vcs
  repository : s.repository = p.repository
  branch : s.branch? = if p.vcs = .git ∨ p.vcs = .cvs then some p.branch else none
  auth : s.auth? = if p.vcs = .svn then some p.credentials else none

end CheckoutSource

/-- The source of the checkout that a step makes. -/
def Step.source? (step : Step) : Option CheckoutSource :=
  step.kind.checkout?.map Checkout.source

/-- A root and a module with an exclamation mark between them. -/
def IsLocator (locator : String) : Prop :=
  ∃ root module, locator = root ++ "!" ++ module ∧ IsLocatorPart root ∧ IsLocatorPart module

/-- The projects have one repository in one system, and what their system needs besides is the same. -/
structure ProjectConfig.SameSource (p p' : ProjectConfig) : Prop where
  vcs : p.vcs = p'.vcs
  repository : p.repository = p'.repository
  branch : p.vcs = .git ∨ p.vcs = .cvs → p.branch = p'.branch
  credentials : p.vcs = .svn → p.credentials = p'.credentials

theorem ProjectConfig.locatorMalformed_iff {p : ProjectConfig} :
    p.LocatorMalformed ↔ p.vcs = .cvs ∧ ¬ IsLocator p.repository := by
  rw [← not_not (a := p.LocatorMalformed), ProjectConfig.not_locatorMalformed_iff, Classical.not_imp,
    IsLocator]

namespace Toolchain

variable {p p' : ProjectConfig} {s s' : CheckoutSource} {e : CompileError}

/-! ### Sources -/

theorem tells_of_source (h : source p = .ok s) : s.Tells p := by
  cases hv : p.vcs <;> simp only [source, hv] at h
  case cvs =>
    split at h
    · next root module hsplit =>
      cases h
      obtain ⟨hlocator, -, -⟩ := splitLocator?_eq_some_iff.mp hsplit
      constructor <;>
        simp [CheckoutSource.vcs, CheckoutSource.repository, CheckoutSource.branch?, CheckoutSource.auth?,
          hv, hlocator]
    · cases h
  -- the other systems take the repository as it is
  all_goals
    cases h
    constructor <;>
      simp [CheckoutSource.vcs, CheckoutSource.repository, CheckoutSource.branch?, CheckoutSource.auth?, hv]

/-- Nothing else of a project has a part in its source. -/
theorem source_congr (h : p.SameSource p') : source p = source p' := by
  unfold source
  rw [← h.vcs, ← h.repository]
  cases hv : p.vcs with
  | svn => rw [h.credentials hv]
  | git => rw [h.branch (Or.inl hv)]
  | hg => rfl
  | bzr => rfl
  | cvs => rw [h.branch (Or.inr hv)]

theorem source_eq_iff (h : source p = .ok s) (h' : source p' = .ok s') : s = s' ↔ p.SameSource p' := by
  constructor
  · -- what a source tells of its project is enough to compare by
    rintro rfl
    have htells := tells_of_source h
    have htells' := tells_of_source h'
    have hvcs : p.vcs = p'.vcs := htells.vcs.symm.trans htells'.vcs
    refine ⟨hvcs, htells.repository.symm.trans htells'.repository, fun hv => ?_, fun hv => ?_⟩
    · have hbranch := htells.branch.symm.trans htells'.branch
      rwa [← hvcs, if_pos hv, if_pos hv, Option.some.injEq] at hbranch
    · have hauth := htells.auth.symm.trans htells'.auth
      rwa [← hvcs, if_pos hv, if_pos hv, Option.some.injEq] at hauth
  · intro hsame
    exact Except.ok.inj (h.symm.trans ((source_congr hsame).trans h'))

theorem source_eq_error_iff :
    source p = .error e ↔ p.LocatorMalformed ∧ e = .malformedLocator p.repository := by
  by_cases hm : p.LocatorMalformed
  · rw [source_of_malformed hm]
    simp [hm, eq_comm]
  · obtain ⟨s, hs⟩ := exists_source hm
    rw [hs]
    exact iff_of_false nofun fun h => hm h.1

/-! ### Checkouts -/

/-- The checkout of a source, with the settings of a project. -/
def checkoutStep (t : Toolchain) (p : ProjectConfig) (s : CheckoutSource) : Step where
  kind := .checkout
    { source := s, mode := p.vcsMode, retry := t.retry, alwaysUseLatest := p.alwaysUseLatest }
  timeout := p.timeouts.global
  haltOnFailure := true

theorem checkout_eq (t : Toolchain) (p : ProjectConfig) :
    t.checkout p = (source p).map (t.checkoutStep p) := by
  unfold checkout
  cases source p <;> rfl

/-- **A checkout keeps the repository.**  It fails just for a project in CVS whose repository is not a root
and a module with an exclamation mark between them, and the error has the whole text of the repository.
Otherwise it is one step with the source and the settings of the project.  The source tells the system and
the text of the repository, the branch for Git and CVS only, and the credentials for Subversion only.  So
the sources of two projects are the same just if the projects agree in that, and nothing else matters. -/
theorem checkout_keeps_repository (t : Toolchain) (p : ProjectConfig) :
    (∀ e, t.checkout p = .error e ↔
      (p.vcs = .cvs ∧ ¬ IsLocator p.repository) ∧ e = .malformedLocator p.repository) ∧
    ((∃ step, t.checkout p = .ok step) ↔ (p.vcs = .cvs → IsLocator p.repository)) ∧
    (∀ step, t.checkout p = .ok step →
      ∃ s : CheckoutSource, s.Tells p ∧ step = t.checkoutStep p s) ∧
    ∀ (t' : Toolchain) (p' : ProjectConfig) (step step' : Step), t.checkout p = .ok step →
      t'.checkout p' = .ok step' → (step.source? = step'.source? ↔ p.SameSource p') := by
  simp only [checkout_eq]
  refine ⟨fun e => ?_, ?_, fun step h => ?_, fun t' p' step step' h h' => ?_⟩
  · rw [map_eq_error_iff, source_eq_error_iff, ProjectConfig.locatorMalformed_iff]
  · constructor
    · rintro ⟨step, h⟩ hv
      obtain ⟨s, hs, -⟩ := map_eq_ok_iff.mp h
      by_contra hlocator
      have hm : p.LocatorMalformed := ProjectConfig.locatorMalformed_iff.mpr ⟨hv, hlocator⟩
      cases hs.symm.trans (source_of_malformed hm)
    · intro hlocator
      obtain ⟨s, hs⟩ := exists_source fun hm =>
        (ProjectConfig.locatorMalformed_iff.mp hm).2 (hlocator hm.1)
      exact ⟨_, map_eq_ok_iff.mpr ⟨s, hs, rfl⟩⟩
  · obtain ⟨s, hs, rfl⟩ := map_eq_ok_iff.mp h
    exact ⟨s, tells_of_source hs, rfl⟩
  · obtain ⟨s, hs, rfl⟩ := map_eq_ok_iff.mp h
    obtain ⟨s', hs', rfl⟩ := map_eq_ok_iff.mp h'
    rw [← source_eq_iff hs hs']
    exact Option.some_inj

/-- A repository in CVS with a second exclamation mark cannot be checked out, and the same in Git can.  Two
in CVS that differ in the place of the exclamation mark have different sources. -/
theorem checkout_keeps_repository_marks :
    let t := Toolchain.ofInterpreter none
    let cvs (repository : String) : ProjectConfig :=
      { ProjectConfig.plain "app" with vcs := .cvs, repository := repository }
    t.checkout (cvs "root!mod!") = .error (.malformedLocator "root!mod!") ∧
      (∃ step, t.checkout { cvs "root!mod!" with vcs := .git } = .ok step) ∧
      ∃ step step', t.checkout (cvs "root!mod") = .ok step ∧ t.checkout (cvs "roo!tmod") = .ok step' ∧
        step.source? ≠ step'.source? := by
  intro t cvs
  obtain ⟨herror, -, -, -⟩ := t.checkout_keeps_repository (cvs "root!mod!")
  obtain ⟨-, hgit, -, -⟩ := t.checkout_keeps_repository { cvs "root!mod!" with vcs := .git }
  obtain ⟨-, hone, -, hsame⟩ := t.checkout_keeps_repository (cvs "root!mod")
  obtain ⟨-, htwo, -, -⟩ := t.checkout_keeps_repository (cvs "roo!tmod")
  have hmalformed : (cvs "root!mod!").LocatorMalformed := by decide +kernel
  have hpart : ∀ part ∈ ["root", "mod", "roo", "tmod"], IsLocatorPart part := by
    unfold IsLocatorPart
    decide
  obtain ⟨step, hstep⟩ := hone.mpr fun _ => ⟨"root", "mod", by decide, hpart _ (by simp), hpart _ (by simp)⟩
  obtain ⟨step', hstep'⟩ := htwo.mpr fun _ => ⟨"roo", "tmod", by decide, hpart _ (by simp), hpart _ (by simp)⟩
  refine ⟨(herror _).mpr ⟨ProjectConfig.locatorMalformed_iff.mp hmalformed, rfl⟩, hgit.mpr nofun, step,
    step', hstep, hstep', fun h => ?_⟩
  have hrepository := ((hsame t _ _ _ hstep hstep').mp h).repository
  exact absurd hrepository (by decide)

end Toolchain

end BuildPlan
