import BuildPlan.Plan
import Mathlib.Data.List.Nodup

/-!
# The pieces of plans

What the plans of a master hold of a kind (schedulers, builders, notifiers), each piece with the name of
the project that it belongs to, in the order of installation.
-/

namespace BuildPlan

variable {α : Type} {items : ProjectPlan → List α} {plans before after : List ProjectPlan}
  {plan : ProjectPlan} {name : String} {x : α} {i : Nat}

/-- The pieces of a kind that plans hold, each with the name of its project. -/
def owned (items : ProjectPlan → List α) (plans : List ProjectPlan) : List (String × α) :=
  plans.flatMap fun plan => (items plan).map (plan.name, ·)

theorem owned_cons (items : ProjectPlan → List α) (plan : ProjectPlan) (plans : List ProjectPlan) :
    owned items (plan :: plans) = (items plan).map (plan.name, ·) ++ owned items plans := rfl

theorem owned_append (items : ProjectPlan → List α) (before after : List ProjectPlan) :
    owned items (before ++ after) = owned items before ++ owned items after :=
  List.flatMap_append

theorem map_snd_owned (items : ProjectPlan → List α) (plans : List ProjectPlan) :
    (owned items plans).map Prod.snd = plans.flatMap items := by
  unfold owned
  rw [List.map_flatMap]
  simp only [List.map_map, Function.comp_def, List.map_id']

theorem mem_owned_iff :
    (name, x) ∈ owned items plans ↔ ∃ plan ∈ plans, plan.name = name ∧ x ∈ items plan := by
  simp only [owned, List.mem_flatMap, List.mem_map, Prod.mk.injEq]
  constructor
  · rintro ⟨plan, hp, y, hy, hn, rfl⟩
    exact ⟨plan, hp, hn, hy⟩
  · rintro ⟨plan, hp, hn, hx⟩
    exact ⟨plan, hp, x, hx, hn, rfl⟩

/-- A piece stands behind all pieces of the plans in front of its own. -/
theorem exists_of_getElem?_owned (h : (owned items plans)[i]? = some (name, x)) :
    ∃ before plan after, plans = before ++ plan :: after ∧ plan.name = name ∧ x ∈ items plan ∧
      (owned items before).length ≤ i := by
  induction plans generalizing i with
  | nil => cases h
  | cons p rest ih =>
    rw [owned_cons] at h
    by_cases hi : i < ((items p).map (p.name, ·)).length
    · rw [List.getElem?_append_left hi] at h
      obtain ⟨y, hy, he⟩ := List.mem_map.mp (List.mem_of_getElem? h)
      cases he
      exact ⟨[], p, rest, rfl, rfl, hy, Nat.zero_le i⟩
    · rw [List.getElem?_append_right (by omega)] at h
      obtain ⟨before, plan, after, rfl, hn, hx, hle⟩ := ih h
      refine ⟨p :: before, plan, after, rfl, hn, hx, ?_⟩
      rw [owned_cons, List.length_append]
      omega

/-- The pieces of a plan stand in front of all pieces of the plans behind it. -/
theorem exists_getElem?_owned (hp : plan ∈ before) (hx : x ∈ items plan) (after : List ProjectPlan) :
    ∃ j < (owned items before).length,
      (owned items (before ++ after))[j]? = some (plan.name, x) := by
  obtain ⟨j, hj, he⟩ := List.getElem_of_mem (mem_owned_iff.mpr ⟨plan, hp, rfl, hx⟩)
  refine ⟨j, hj, ?_⟩
  rw [owned_append, List.getElem?_append_left hj, List.getElem?_eq_getElem hj, he]

theorem filter_owned_eq_nil (h : name ∉ plans.map ProjectPlan.name) :
    (owned items plans).filter (fun piece => piece.1 == name) = [] := by
  refine List.filter_eq_nil_iff.mpr ?_
  rintro ⟨n, y⟩ hy he
  obtain ⟨plan, hp, hn, -⟩ := mem_owned_iff.mp hy
  exact h (List.mem_map.mpr ⟨plan, hp, hn.trans (eq_of_beq he)⟩)

/-- If the projects have different names, then the pieces of one of them are those of its plan. -/
theorem filter_owned (h : (plans.map ProjectPlan.name).Nodup) (hp : plan ∈ plans) :
    (owned items plans).filter (fun piece => piece.1 == plan.name) =
      (items plan).map (plan.name, ·) := by
  obtain ⟨before, after, rfl⟩ := List.append_of_mem hp
  rw [List.map_append, List.map_cons, List.nodup_append, List.nodup_cons] at h
  obtain ⟨-, ⟨hafter, -⟩, hne⟩ := h
  have hbefore : plan.name ∉ before.map ProjectPlan.name := fun hm =>
    hne plan.name hm plan.name List.mem_cons_self rfl
  have hown : ((items plan).map (plan.name, ·)).filter (fun piece => piece.1 == plan.name) =
      (items plan).map (plan.name, ·) := by
    simp
  rw [owned_append, owned_cons, List.filter_append, List.filter_append, filter_owned_eq_nil hbefore,
    hown, filter_owned_eq_nil hafter, List.nil_append, List.append_nil]

end BuildPlan
