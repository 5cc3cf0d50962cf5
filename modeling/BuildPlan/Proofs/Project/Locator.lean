import BuildPlan.Proofs.Compiler.Assembly
import BuildPlan.Proofs.Text.Separator

/-!
# Locators

A locator is a root and a module with an exclamation mark between them, and can be read in one way only.
-/

namespace BuildPlan

/-- A part of a locator: it is not empty and has no exclamation mark. -/
def IsLocatorPart (part : String) : Prop :=
  part ≠ "" ∧ '!' ∉ part.toList

/-- A locator is split into the two parts that it is put together from. -/
theorem splitLocator?_eq_some_iff {locator root module : String} :
    splitLocator? locator = some (root, module) ↔
      locator = root ++ "!" ++ module ∧ IsLocatorPart root ∧ IsLocatorPart module := by
  unfold splitLocator?
  constructor
  · intro h
    split at h
    · next root' module' hsplit =>
      obtain ⟨hl, hr, hm⟩ := Chars.splitOnP_eq_pair_iff.mp hsplit
      -- a locator cut in two may still have an empty part
      split at h
      · cases h
      · next hne =>
        simp only [Option.some.injEq, Prod.mk.injEq] at h
        obtain ⟨rfl, rfl⟩ := h
        simp only [Bool.or_eq_true, List.isEmpty_iff, not_or] at hne
        refine ⟨?_, ⟨by simpa using hne.1, by simpa using hr⟩, by simpa using hne.2, by simpa using hm⟩
        apply String.toList_inj.mp
        simp [hl]
    · cases h
  · rintro ⟨rfl, ⟨hr, hr'⟩, hm, hm'⟩
    have hsplit : (root ++ "!" ++ module).toList.splitOnP (· == '!') =
        [root.toList, module.toList] :=
      Chars.splitOnP_eq_pair_iff.mpr ⟨by simp, hr', hm'⟩
    rw [hsplit]
    simp [hr, hm]

namespace ProjectConfig

theorem not_locatorMalformed_iff {p : ProjectConfig} :
    ¬ p.LocatorMalformed ↔ (p.vcs = .cvs → ∃ root module,
      p.repository = root ++ "!" ++ module ∧ IsLocatorPart root ∧ IsLocatorPart module) := by
  simp only [LocatorMalformed, not_and, ← splitLocator?_eq_some_iff]
  cases splitLocator? p.repository with
  | none => simp
  | some parts => simp [Prod.ext_iff]

end ProjectConfig

end BuildPlan
