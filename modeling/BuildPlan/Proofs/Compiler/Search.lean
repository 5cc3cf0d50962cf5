import BuildPlan.Proofs.Compiler.Calls
import BuildPlan.Proofs.Resolution.DepthFirst

/-!
# A compiler searches

A compiler is an assembler that searches: a project depends on its parent and on nothing else, and fails
by itself if none of its workers is known or its locator is malformed.
-/

namespace BuildPlan

namespace Script

variable {ε : Type} {s : Script ε}

theorem searches_emitAll {own : Option CompileError} {deps : List String} (events : List ε)
    (h : s.Searches own deps) : (emitAll events s).Searches own deps := by
  induction events with
  | nil => exact h
  | cons event rest ih => exact ih

theorem passesOn_emitAll {e : CompileError} (events : List ε) (h : s.PassesOn e) :
    (emitAll events s).PassesOn e := by
  induction events with
  | nil => exact h
  | cons event rest ih => exact ih

end Script

namespace Compiler

variable {c : Compiler} {p : ProjectConfig}

/-- The error of a project's own, whatever becomes of its parent. -/
def ownError (c : Compiler) (p : ProjectConfig) : Option CompileError :=
  if c.knowsWorkerOf p = false then some (.invalidWorkerSet p.workers)
  else if p.LocatorMalformed then some (.malformedLocator p.repository)
  else none

theorem ownError_of_worker (hw : c.knowsWorkerOf p) :
    c.ownError p =
      if p.LocatorMalformed then some (.malformedLocator p.repository) else none := by
  unfold ownError
  rw [hw]
  rfl

theorem searches_finishWith (hw : c.knowsWorkerOf p) (schedulers : List Scheduler) :
    (c.finishWith p schedulers).Searches (c.ownError p) [] := by
  rw [ownError_of_worker hw]
  unfold finishWith
  -- a malformed locator ends the search, otherwise the assembly is finished without another request
  by_cases hm : p.LocatorMalformed
  · rw [if_pos hm, Toolchain.pipeline_of_malformed _ hm]
    exact rfl
  · obtain ⟨pipeline, hp⟩ := c.toolchain.exists_pipeline hm
    rw [if_neg hm, hp]
    exact Script.searches_emitAll _ ⟨rfl, rfl⟩

theorem searches_resolveParent (hw : c.knowsWorkerOf p) :
    (c.resolveParent p).Searches (c.ownError p) p.schedule.dependent.toList := by
  unfold resolveParent
  cases p.schedule.dependent with
  | none => exact Script.searches_emitAll _ (searches_finishWith hw _)
  | some parent =>
    refine ⟨[], rfl, fun plan => ?_, fun e => ?_⟩
    · exact Script.searches_emitAll _ (searches_finishWith hw _)
    · exact Script.passesOn_emitAll _ rfl

theorem searches_assemble (c : Compiler) (p : ProjectConfig) :
    (c.assemble p).Searches (c.ownError p) p.schedule.dependent.toList := by
  show Script.Searches _ (ite _ _ _) _
  cases hw : c.knowsWorkerOf p with
  | false =>
    show c.ownError p = _
    unfold ownError
    rw [if_pos hw]
  | true =>
    rw [if_pos rfl]
    split
    · exact searches_resolveParent hw
    · exact searches_resolveParent hw

/-- The compiler as an assembler that searches. -/
def search (c : Compiler) : DependencySearch Event where
  toAssembler := c.assembler
  dependencies p := p.schedule.dependent.toList
  ownError := c.ownError
  searches := c.searches_assemble
  own_ne_cycle p path := by
    show c.ownError p ≠ _
    unfold ownError
    split_ifs <;> simp
  own_ne_unknown p name := by
    show c.ownError p ≠ _
    unfold ownError
    split_ifs <;> simp

/-- What a project needs is its parent. -/
theorem search_needs_iff {r : Registry} {name parent : String} :
    c.search.Needs r name parent ↔ r.DependsOn name parent := by
  simp [DependencySearch.Needs, Registry.DependsOn, search]

theorem resolve_search (c : Compiler) (r : Registry) (name : String) :
    c.search.resolve c.search.registersNothing r name = c.resolve r name := rfl

end Compiler

end BuildPlan
