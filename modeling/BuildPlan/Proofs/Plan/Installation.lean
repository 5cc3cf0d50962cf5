import BuildPlan.Plan
import Mathlib.Data.List.Infix
import Mathlib.Data.List.Perm.Basic

/-!
# Installed plans

What is on a master after plans have been installed: the schedulers, builders and notifiers of the plans,
one plan after the other.
-/

namespace BuildPlan

namespace MasterPlan

theorem foldl_install (m : MasterPlan) (plans : List ProjectPlan) :
    plans.foldl install m =
      { schedulers := m.schedulers ++ plans.flatMap ProjectPlan.schedulers
        builders := m.builders ++ plans.flatMap ProjectPlan.builders
        notifiers := m.notifiers ++ plans.flatMap fun p => p.notifier.toList } := by
  induction plans generalizing m with
  | nil => simp
  | cons p rest ih =>
    rw [List.foldl_cons, ih]
    simp only [install, List.flatMap_cons, List.append_assoc]

theorem schedulers_ofPlans (plans : List ProjectPlan) :
    (ofPlans plans).schedulers = plans.flatMap ProjectPlan.schedulers := by
  rw [ofPlans, foldl_install]
  rfl

theorem builders_ofPlans (plans : List ProjectPlan) :
    (ofPlans plans).builders = plans.flatMap ProjectPlan.builders := by
  rw [ofPlans, foldl_install]
  rfl

theorem notifiers_ofPlans (plans : List ProjectPlan) :
    (ofPlans plans).notifiers = plans.flatMap fun p => p.notifier.toList := by
  rw [ofPlans, foldl_install]
  rfl

variable {plans plans' : List ProjectPlan}

/-- What is installed first is not moved by what is installed behind it. -/
theorem ofPlans_prefix (h : plans <+: plans') :
    (ofPlans plans).schedulers <+: (ofPlans plans').schedulers ∧
      (ofPlans plans).builders <+: (ofPlans plans').builders ∧
      (ofPlans plans).notifiers <+: (ofPlans plans').notifiers := by
  simp only [schedulers_ofPlans, builders_ofPlans, notifiers_ofPlans]
  exact ⟨h.flatMap _, h.flatMap _, h.flatMap _⟩

/-- In another order, the same is installed in another order. -/
theorem ofPlans_perm (h : plans.Perm plans') :
    (ofPlans plans).schedulers.Perm (ofPlans plans').schedulers ∧
      (ofPlans plans).builders.Perm (ofPlans plans').builders ∧
      (ofPlans plans).notifiers.Perm (ofPlans plans').notifiers := by
  simp only [schedulers_ofPlans, builders_ofPlans, notifiers_ofPlans]
  exact ⟨h.flatMap_right _, h.flatMap_right _, h.flatMap_right _⟩

end MasterPlan

end BuildPlan
