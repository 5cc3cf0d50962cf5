import BuildPlan.Proofs.Resolution.Order
import Mathlib.Order.Lattice.Nat

/-!
# Orders by first demand

Names are declared in a list and resolved one after the other, each behind what it needs.  What comes of
this is told by `firstDemand`, the position of the first declared name that leads to a name: an order in
which first demands do not decrease, and in which every name comes after what it needs, is determined by
these two facts as long as every name needs at most one other (`idxOf_lt_iff_firstDemand`).
-/

namespace BuildPlan

open Relation

/-- The least position in the list of a name that leads to the given one, in some steps or in none. -/
noncomputable def firstDemand (needs : String → String → Prop) (declared : List String)
    (name : String) : ℕ :=
  sInf {i | ∃ n, declared[i]? = some n ∧ ReflTransGen needs n name}

variable {needs : String → String → Prop} {declared order : List String} {name m x y : String}

/-! ### First demands -/

theorem firstDemand_le {i : ℕ} (hi : declared[i]? = some name) (hr : ReflTransGen needs name m) :
    firstDemand needs declared m ≤ i :=
  Nat.sInf_le ⟨name, hi, hr⟩

theorem exists_firstDemand (hn : name ∈ declared) (hr : ReflTransGen needs name m) :
    ∃ n, declared[firstDemand needs declared m]? = some n ∧ ReflTransGen needs n m := by
  obtain ⟨i, hi⟩ := List.getElem?_of_mem hn
  exact Nat.sInf_mem (s := {i | ∃ n, declared[i]? = some n ∧ ReflTransGen needs n m})
    ⟨i, name, hi, hr⟩

/-- A name that is demanded by the name at a position, and by none before, is first demanded there. -/
theorem firstDemand_eq {before after : List String} (hr : ReflTransGen needs name m)
    (hb : ∀ n ∈ before, ¬ ReflTransGen needs n m) :
    firstDemand needs (before ++ name :: after) m = before.length := by
  have hi : (before ++ name :: after)[before.length]? = some name := by simp
  have hle := firstDemand_le hi hr
  obtain ⟨n, hn, hnm⟩ := exists_firstDemand (List.mem_of_getElem? hi) hr
  by_contra hne
  have hlt : firstDemand needs (before ++ name :: after) m < before.length := by omega
  rw [List.getElem?_append_left hlt] at hn
  exact hb n (List.mem_of_getElem? hn) hnm

/-- Two names that the same name demands first are needed one by the other. -/
theorem transGen_or_of_firstDemand_eq (hu : Relator.RightUnique needs) (hx : x ∈ declared)
    (hy : y ∈ declared) (hne : x ≠ y)
    (h : firstDemand needs declared x = firstDemand needs declared y) :
    TransGen needs x y ∨ TransGen needs y x := by
  obtain ⟨n, hn, hnx⟩ := exists_firstDemand hx (.refl : ReflTransGen needs x x)
  obtain ⟨n', hn', hny⟩ := exists_firstDemand hy (.refl : ReflTransGen needs y y)
  rw [h, hn'] at hn
  cases hn
  -- both stand on the one way that begins at `n`
  rcases hnx.total_of_right_unique hu hny with hr | hr
  · exact Or.inl ((reflTransGen_iff_eq_or_transGen.mp hr).resolve_left (Ne.symm hne))
  · exact Or.inr ((reflTransGen_iff_eq_or_transGen.mp hr).resolve_left hne)

/-! ### Positions -/

theorem lt_of_pairwise_le {f : String → ℕ} (hs : order.Pairwise fun a b => f a ≤ f b)
    (hx : x ∈ order) (hlt : order.idxOf x < order.idxOf y) (hy : y ∈ order) : f x ≤ f y := by
  have hx' := List.idxOf_lt_length_of_mem hx
  have hy' := List.idxOf_lt_length_of_mem hy
  have := List.pairwise_iff_getElem.mp hs _ _ hx' hy' hlt
  rwa [List.getElem_idxOf, List.getElem_idxOf] at this

theorem DependenciesFirst.idxOf_lt (h : DependenciesFirst needs order) (hd : order.Nodup)
    (hn : name ∈ order) (ht : TransGen needs name m) : order.idxOf m < order.idxOf name := by
  obtain ⟨before, after, rfl⟩ := List.append_of_mem hn
  have hm : m ∈ before := h.mem_of_transGen rfl ht
  have hnb : name ∉ before := fun hb =>
    (List.nodup_append.mp hd).2.2 name hb name List.mem_cons_self rfl
  have hlt := List.idxOf_lt_length_of_mem hm
  rw [List.idxOf_append_of_mem hm, List.idxOf_append_of_notMem hnb, List.idxOf_cons_self]
  omega

/-- Which of two names comes first is a matter of their first demands, and of which one needs the
other. -/
theorem idxOf_lt_iff_firstDemand (h : DependenciesFirst needs order) (hd : order.Nodup)
    (hs : order.Pairwise fun a b => firstDemand needs declared a ≤ firstDemand needs declared b)
    (hu : Relator.RightUnique needs) (hmem : ∀ n ∈ order, n ∈ declared)
    (hx : x ∈ order) (hy : y ∈ order) (hne : x ≠ y) :
    order.idxOf x < order.idxOf y ↔
      firstDemand needs declared x < firstDemand needs declared y ∨
      firstDemand needs declared x = firstDemand needs declared y ∧ TransGen needs y x := by
  have hidx : order.idxOf x ≠ order.idxOf y := fun he => hne ((List.idxOf_inj hx).mp he)
  constructor
  · intro hlt
    rcases (lt_of_pairwise_le hs hx hlt hy).lt_or_eq with hr | hr
    · exact Or.inl hr
    · -- neither is demanded before the other, so the later one needs the earlier one
      refine Or.inr ⟨hr, ?_⟩
      rcases transGen_or_of_firstDemand_eq hu (hmem x hx) (hmem y hy) hne hr with ht | ht
      · have := h.idxOf_lt hd hx ht
        omega
      · exact ht
  · rintro (hr | ⟨-, ht⟩)
    · by_contra hle
      have hyx : order.idxOf y < order.idxOf x := by omega
      have := lt_of_pairwise_le hs hy hyx hx
      omega
    · exact h.idxOf_lt hd hy ht

/-! ### Names that are declared after what they need -/

section Declared

variable (hd : declared.Nodup) (hb : ∀ n m, needs n m → declared.idxOf m < declared.idxOf n)
include hd hb

/-- Then every name is the first to demand itself. -/
theorem firstDemand_eq_idxOf (hn : name ∈ declared) :
    firstDemand needs declared name = declared.idxOf name := by
  have hself := List.getElem?_idxOf hn
  have hle : firstDemand needs declared name ≤ declared.idxOf name := firstDemand_le hself .refl
  obtain ⟨n, hi, hr⟩ := exists_firstDemand hn (.refl : ReflTransGen needs name name)
  have hidx : declared.idxOf name ≤ declared.idxOf n := by
    clear hi
    induction hr using ReflTransGen.head_induction_on with
    | refl => exact le_rfl
    | head hab _ ih => exact ih.trans (hb _ _ hab).le
  have hn' : declared.idxOf n = firstDemand needs declared name := by
    obtain ⟨hlt, he⟩ := List.getElem?_eq_some_iff.mp hi
    rw [← he, hd.idxOf_getElem]
  omega

/-- Then the order is that of the declarations. -/
theorem eq_declared_of_firstDemand (hp : order.Perm declared)
    (hs : order.Pairwise fun a b => firstDemand needs declared a ≤ firstDemand needs declared b) :
    order = declared := by
  have hidx : ∀ n ∈ order, firstDemand needs declared n = declared.idxOf n :=
    fun n hn => firstDemand_eq_idxOf hd hb (hp.mem_iff.mp hn)
  have hs' : order.Pairwise fun a b => declared.idxOf a ≤ declared.idxOf b := by
    refine hs.imp_of_mem fun {a b} ha hb' hab => ?_
    rwa [hidx a ha, hidx b hb'] at hab
  have hdecl : declared.Pairwise fun a b => declared.idxOf a ≤ declared.idxOf b := by
    rw [List.pairwise_iff_getElem]
    intro i j hi hj hij
    rw [hd.idxOf_getElem, hd.idxOf_getElem]
    exact hij.le
  -- both lists are sorted by the position among the declared names
  refine hp.eq_of_pairwise (fun a b ha _ hab hba => ?_) hs' hdecl
  exact (List.idxOf_inj (hp.mem_iff.mp ha)).mp (le_antisymm hab hba)

end Declared

end BuildPlan
