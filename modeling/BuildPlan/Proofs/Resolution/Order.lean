import Mathlib.Data.List.Chain
import Mathlib.Data.List.Nodup
import Mathlib.Logic.Relation

/-!
# Orders and loops of names

Two views of a relation `needs` on names that a depth-first search gives: an order in which every name
comes after those that it needs, and a loop, cut from the path that leads from the root to the name that
was met again.
-/

namespace BuildPlan

open Relation

variable {needs : String → String → Prop} {names : List String} {name m : String}

/-- Every name in the list comes after all that it needs. -/
def DependenciesFirst (needs : String → String → Prop) (names : List String) : Prop :=
  ∀ before name after, names = before ++ name :: after → ∀ m, needs name m → m ∈ before

namespace DependenciesFirst

theorem nil : DependenciesFirst needs [] := by
  intro before name after h
  simp at h

theorem concat (h : DependenciesFirst needs names) (hn : ∀ m, needs name m → m ∈ names) :
    DependenciesFirst needs (names ++ [name]) := by
  intro before n after hs m hm
  -- the new name itself, or one that was there before
  rcases List.eq_nil_or_concat after with rfl | ⟨after, last, rfl⟩
  · obtain ⟨rfl, hl⟩ := List.append_inj' hs rfl
    cases hl
    exact hn m hm
  · rw [List.concat_eq_append, ← List.cons_append, ← List.append_assoc] at hs
    obtain ⟨hl, -⟩ := List.append_inj' hs rfl
    exact h before n after hl m hm

theorem mono {needs' : String → String → Prop} (h : DependenciesFirst needs names)
    (hn : ∀ n ∈ names, ∀ m, needs' n m → needs n m) : DependenciesFirst needs' names := by
  intro before n after hs m hm
  exact h before n after hs m (hn n (by simp [hs]) m hm)

/-- Where a name stands that is needed by another. -/
theorem exists_split (h : DependenciesFirst needs names) {before after : List String}
    (hs : names = before ++ name :: after) (hm : needs name m) :
    ∃ front back, before = front ++ m :: back ∧ names = front ++ m :: (back ++ name :: after) := by
  obtain ⟨front, back, rfl⟩ := List.append_of_mem (h before name after hs m hm)
  refine ⟨front, back, rfl, ?_⟩
  rw [hs, List.append_assoc, List.cons_append]

/-- What a name needs, and what that needs, and so on, comes before it. -/
theorem mem_of_transGen (h : DependenciesFirst needs names) {before after : List String}
    (hs : names = before ++ name :: after) (ht : TransGen needs name m) : m ∈ before := by
  induction ht with
  | single hm => exact h before name after hs _ hm
  | @tail b c _ hbc ih =>
    obtain ⟨front, back, rfl⟩ := List.append_of_mem ih
    have hb : names = front ++ b :: (back ++ name :: after) := by
      rw [hs, List.append_assoc, List.cons_append]
    exact List.mem_append_left _ (h front b _ hb c hbc)

theorem mem_of_reflTransGen (h : DependenciesFirst needs names) (hn : name ∈ names)
    (hr : ReflTransGen needs name m) : m ∈ names := by
  rcases reflTransGen_iff_eq_or_transGen.mp hr with rfl | ht
  · exact hn
  · obtain ⟨before, after, hs⟩ := List.append_of_mem hn
    rw [hs]
    exact List.mem_append_left _ (h.mem_of_transGen hs ht)

/-- No name in such an order needs itself. -/
theorem not_transGen_self (h : DependenciesFirst needs names) (hd : names.Nodup)
    (hn : name ∈ names) : ¬ TransGen needs name name := by
  intro ht
  obtain ⟨before, after, hs⟩ := List.append_of_mem hn
  rw [hs, List.nodup_append] at hd
  exact hd.2.2 name (h.mem_of_transGen hs ht) name List.mem_cons_self rfl

end DependenciesFirst

/-- The path leads from a name through others, each only once, back to where it began, and each name on
it needs the next. -/
def IsLoop (needs : String → String → Prop) (path : List String) : Prop :=
  ∃ start between, path = start :: (between ++ [start]) ∧ (start :: between).Nodup ∧
    path.IsChain needs

theorem dropWhile_ne_append {before after : List String} (h : name ∉ before) :
    (before ++ name :: after).dropWhile (· != name) = name :: after := by
  rw [List.dropWhile_append_of_pos fun a ha => by
    rw [bne_iff_ne]
    rintro rfl
    exact h ha]
  simp

/-- A path that comes to a name that it has passed contains a loop. -/
theorem isLoop_dropWhile {path : List String} (hc : path.IsChain needs) (hd : path.Nodup)
    (hn : name ∈ path) (hl : ∀ last ∈ path.getLast?, needs last name) :
    IsLoop needs (path.dropWhile (· != name) ++ [name]) := by
  obtain ⟨before, between, rfl, hb⟩ := List.eq_append_cons_of_mem hn
  rw [dropWhile_ne_append hb]
  refine ⟨name, between, rfl, (List.nodup_append.mp hd).2.1, ?_⟩
  refine hc.right_of_append.append (List.isChain_singleton name) fun last hlast y hy => ?_
  have hy' : name = y := by simpa using hy
  subst hy'
  exact hl last (by simpa using hlast)

/-- Each name on a loop needs, in some steps, itself. -/
theorem IsLoop.transGen {path : List String} (h : IsLoop needs path) :
    ∃ start ∈ path, TransGen needs start start := by
  obtain ⟨start, between, rfl, -, hc⟩ := h
  refine ⟨start, List.mem_cons_self, ?_⟩
  cases between with
  | nil => exact .single (List.isChain_pair.mp hc)
  | cons x rest =>
    obtain ⟨hx, hc⟩ := List.isChain_cons_cons.mp hc
    exact .head' hx (List.relationReflTransGen_of_exists_isChain_cons _ hc (by simp))

end BuildPlan
