import BuildPlan.Proofs.Compiler.Calls
import BuildPlan.Proofs.Project.Plain

/-!
# Which fault is reported

A resolution walks from a project to its parent, from there to the parent's parent, and so on, until it
comes to a plan or to a project without a parent.  Names, loops and workers are checked on the way there,
so the first fault is reported, and nothing has been resolved then.  Locators are checked on the way back
(`Registry.Unwinds`), so the malformed one that is farthest away is reported, and what lies behind it has
been resolved.
-/

namespace BuildPlan

/-- The locator of the registered project is malformed. -/
def Registry.Malformed (r : Registry) (name : String) : Prop :=
  ∃ p, r.config? name = some p ∧ p.LocatorMalformed

/-! ### The way there -/

/-- How a walk goes on that has passed some names and come to another: it ends in an error, or it goes
over the listed projects, which are unresolved, up to a plan or to a project without a parent. -/
inductive Compiler.Walks (c : Compiler) (r : Registry) :
    List String → String → Except CompileError (List String) → Prop where
  | unknown {passed : List String} {name : String} (hm : name ∉ passed) (he : r.get? name = none) :
    Walks c r passed name (.error (.unknownDependency name))
  | loop {passed : List String} {name : String} (hm : name ∈ passed) :
    Walks c r passed name
      (.error (.dependencyCycle (passed.dropWhile (· != name) ++ [name])))
  | noWorker {passed : List String} {name : String} {p : ProjectConfig} (hm : name ∉ passed)
    (he : r.get? name = some ⟨p, .unresolved⟩) (hw : c.knowsWorkerOf p = false) :
    Walks c r passed name (.error (.invalidWorkerSet p.workers))
  | resolved {passed : List String} {name : String} {p : ProjectConfig} {plan : ProjectPlan}
    (hm : name ∉ passed) (he : r.get? name = some ⟨p, .resolved plan⟩) :
    Walks c r passed name (.ok [])
  | root {passed : List String} {name : String} {p : ProjectConfig} (hm : name ∉ passed)
    (he : r.get? name = some ⟨p, .unresolved⟩) (hw : c.knowsWorkerOf p)
    (hd : p.schedule.dependent = none) :
    Walks c r passed name (.ok [name])
  | step {passed : List String} {name parent : String} {p : ProjectConfig}
    {rest : Except CompileError (List String)} (hm : name ∉ passed)
    (he : r.get? name = some ⟨p, .unresolved⟩) (hw : c.knowsWorkerOf p)
    (hd : p.schedule.dependent = some parent) (h : Walks c r (passed ++ [name]) parent rest) :
    Walks c r passed name (rest.map (name :: ·))

section Walk

variable {c : Compiler} {r : Registry} {passed : List String} {name a : String}
  {first second : Except CompileError (List String)}

/-- There is only one way to go. -/
theorem Compiler.Walks.unique (h : c.Walks r passed name first) (h' : c.Walks r passed name second) :
    first = second := by
  induction h generalizing second with
  | unknown hm he => cases h' <;> simp_all
  | loop hm => cases h' <;> simp_all
  | noWorker hm he hw => cases h' <;> simp_all
  | resolved hm he => cases h' <;> simp_all
  | root hm he hw hd => cases h' <;> simp_all
  | step hm he hw hd _ ih =>
    cases h' with
    | step _ he' _ hd' h' =>
      cases he.symm.trans he'
      cases hd.symm.trans hd'
      rw [ih h']
    | _ => simp_all

/-- Once a name has been passed, it does not matter that its assembly is under way. -/
theorem Compiler.Walks.of_enter (h : c.Walks (r.enter a) passed name first) (ha : a ∈ passed) :
    c.Walks r passed name first := by
  have notPassed : ∀ {passed : List String} {name : String}, a ∈ passed → name ∉ passed →
      (r.enter a).get? name = r.get? name := by
    intro passed name ha hm
    refine Registry.get?_enter_of_ne ?_
    rintro rfl
    exact hm ha
  induction h with
  | unknown hm he => exact .unknown hm (notPassed ha hm ▸ he)
  | loop hm => exact .loop hm
  | noWorker hm he hw => exact .noWorker hm (notPassed ha hm ▸ he) hw
  | resolved hm he => exact .resolved hm (notPassed ha hm ▸ he)
  | root hm he hw hd => exact .root hm (notPassed ha hm ▸ he) hw hd
  | step hm he hw hd _ ih =>
    exact .step hm (notPassed ha hm ▸ he) hw hd (ih (List.mem_append_left _ ha))

end Walk

/-! ### The way back -/

/-- What becomes of the projects that a walk goes over.  They are resolved from the far end on, all of
them or up to the first one whose locator is malformed. -/
structure Registry.Unwinds {α : Type} (r : Registry) (walked : List String)
    (result : Except CompileError α) (r' : Registry) : Prop where
  wellFormed : (∀ n ∈ walked, ¬ r.Malformed n) →
    (∃ a, result = .ok a) ∧ r.Resolves walked.reverse r'
  malformed : ∀ near name far p, walked = near ++ name :: far → r.config? name = some p →
    p.LocatorMalformed → (∀ n ∈ far, ¬ r.Malformed n) →
    result = .error (.malformedLocator p.repository) ∧ r.Resolves far.reverse r'

namespace Registry.Unwinds

variable {α β : Type} {r r' : Registry} {walked : List String} {name : String} {p : ProjectConfig}

theorem nil (r : Registry) (a : α) : r.Unwinds [] (.ok a) r where
  wellFormed _ := ⟨⟨a, rfl⟩, .refl r⟩
  malformed near name far p h := by simp at h

theorem map {result : Except CompileError α} (h : r.Unwinds walked result r') (f : α → β) :
    r.Unwinds walked (result.map f) r' where
  wellFormed hn := by
    obtain ⟨⟨a, rfl⟩, hr⟩ := h.wellFormed hn
    exact ⟨⟨f a, rfl⟩, hr⟩
  malformed near name far p hw hc hm hn := by
    obtain ⟨rfl, hr⟩ := h.malformed near name far p hw hc hm hn
    exact ⟨rfl, hr⟩

/-- One project nearer: it is resolved if what lies behind it has been resolved and its locator is not
malformed. -/
theorem cons {parents : Except CompileError (List Scheduler)} (c : Compiler)
    (he : r.get? name = some ⟨p, .unresolved⟩) (h : (r.enter name).Unwinds walked parents r') :
    r.Unwinds (name :: walked) (c.planWith p parents) (r'.leave name (c.planWith p parents)) := by
  have hc : r.config? name = some p := Registry.config?_of_get? he
  have hconfig := Registry.config?_enter r name
  have hmal : (r.enter name).Malformed = r.Malformed := by
    unfold Registry.Malformed
    rw [hconfig]
  constructor
  · -- all locators on the way are well-formed, so the project is resolved last
    intro hn
    have hp : ¬ p.LocatorMalformed := fun hp => hn name List.mem_cons_self ⟨p, hc, hp⟩
    obtain ⟨⟨schedulers, rfl⟩, hr⟩ := h.wellFormed fun n hw => by
      rw [hmal]
      exact hn n (List.mem_cons_of_mem _ hw)
    obtain ⟨plan, hplan⟩ := c.exists_planWith hp schedulers
    rw [hplan, List.reverse_cons]
    exact ⟨⟨plan, rfl⟩, hr.leave_ok he plan⟩
  · intro near n far q hw hq hm hn
    rw [← hmal] at hn
    rcases List.cons_eq_append_iff.mp hw with ⟨rfl, hsplit⟩ | ⟨near', rfl, hsplit⟩
    · -- the malformed one is this project, and all behind it is well
      obtain ⟨rfl, rfl⟩ := List.cons.inj hsplit
      cases hc.symm.trans hq
      obtain ⟨⟨schedulers, rfl⟩, hr⟩ := h.wellFormed hn
      rw [c.planWith_of_malformed hm]
      exact ⟨rfl, hr.leave_error he _⟩
    · -- the malformed one stands further behind, and the error is passed on
      obtain ⟨rfl, hr⟩ := h.malformed near' n far q hsplit (hconfig ▸ hq) hm hn
      exact ⟨rfl, hr.leave_error he _⟩

end Registry.Unwinds

namespace Compiler

variable {c : Compiler} {r : Registry}

/-- A resolution goes the way of the walk: an error on the way there leaves the registry as it is, and
otherwise it comes back over all that was walked. -/
theorem exists_walks (h : r.Consistent) (name : String) :
    (∃ e, c.Walks r r.stack name (.error e) ∧ (c.resolve r name).result = .error e ∧
      (c.resolve r name).registry = r) ∨
    (∃ walked, c.Walks r r.stack name (.ok walked) ∧
      r.Unwinds walked (c.resolve r name).result (c.resolve r name).registry) := by
  induction r, name using c.resolve_induction with
  | unknown r name he =>
    rw [resolve_of_none c he]
    refine Or.inl ⟨_, .unknown (fun hs => ?_) he, rfl, rfl⟩
    obtain ⟨p, hp⟩ := Registry.state?_eq_some_iff.mp ((h.mem_stack_iff name).mp hs)
    cases he.symm.trans hp
  | resolved r name p plan he =>
    rw [resolve_of_resolved c he]
    refine Or.inr ⟨_, .resolved (fun hs => ?_) he, .nil r plan⟩
    cases (Registry.state?_of_get? he).symm.trans ((h.mem_stack_iff name).mp hs)
  | underWay r name p he =>
    rw [resolve_of_inProgress c he]
    have hs := (h.mem_stack_iff name).mpr (Registry.state?_of_get? he)
    rw [Registry.loop_of_mem hs]
    exact Or.inl ⟨_, .loop hs, rfl, rfl⟩
  | noWorker r name p he hw =>
    rw [resolve_of_noWorker he hw]
    have hs := h.notMem_stack (Registry.state?_of_get? he)
    exact Or.inl ⟨_, .noWorker hs he hw, rfl, rfl⟩
  | root r name p he hw hd =>
    rw [resolve_of_root he hw hd]
    have hs := h.notMem_stack (Registry.state?_of_get? he)
    exact Or.inr ⟨_, .root hs he hw hd, .cons c he (.nil _ [])⟩
  | child r name p parent he hw hd ih =>
    rw [resolve_of_dependent he hw hd]
    have hs := h.notMem_stack (Registry.state?_of_get? he)
    -- the walk from the parent has passed the project
    have hpassed : name ∈ r.stack ++ [name] := List.mem_append_right _ (List.mem_singleton_self name)
    rcases ih (h.enter he) with ⟨e, hwalk, hres, hreg⟩ | ⟨walked, hwalk, hback⟩
    · refine Or.inl ⟨e, .step hs he hw hd (hwalk.of_enter hpassed), ?_, ?_⟩
      · show c.planWith p _ = _
        rw [hres]
        exact c.planWith_error p e
      · show Registry.leave _ _ (c.planWith p _) = r
        rw [hres, hreg]
        exact Registry.leave_enter_error he e
    · -- the way back leads through the project
      exact Or.inr ⟨_, .step hs he hw hd (hwalk.of_enter hpassed), (hback.map _).cons c he⟩

/-- **Which fault is reported.**  After any calls, there is one way to walk from a project to its parents.
If it ends in an error, then the resolution ends in this error, and the registry is as it was.  Otherwise
the projects on the way are resolved from the far end on: all of them, or up to the first whose locator is
malformed, and that is the error then. -/
theorem resolve_reports_fault (c : Compiler) (cs : List Call) (name : String) :
    let r := c.calls cs
    let o := c.resolve r name
    (∃! walk, c.Walks r [] name walk) ∧
    (∀ e, c.Walks r [] name (.error e) → o.result = .error e ∧ o.registry = r) ∧
    (∀ walked, c.Walks r [] name (.ok walked) → r.Unwinds walked o.result o.registry) := by
  intro r o
  have h := exists_walks (c := c) (c.settled_calls cs).consistent name
  rw [c.stack_calls cs] at h
  refine ⟨?_, fun e hw => ?_, fun walked hw => ?_⟩
  · rcases h with ⟨e, hw, -⟩ | ⟨walked, hw, -⟩
    · exact ⟨_, hw, fun _ hw' => hw'.unique hw⟩
    · exact ⟨_, hw, fun _ hw' => hw'.unique hw⟩
  · rcases h with ⟨e', hw', hres, hreg⟩ | ⟨walked, hw', -⟩
    · cases hw.unique hw'
      exact ⟨hres, hreg⟩
    · cases hw.unique hw'
  · rcases h with ⟨e, hw', -⟩ | ⟨walked', hw', hback⟩
    · cases hw.unique hw'
    · cases hw.unique hw'
      exact hback

/-- Of two malformed locators on the way, the one that is farther away is reported, and the project
behind it has been resolved. -/
theorem resolve_two_malformed :
    let c := ofWorkers (.ofList ["w"])
    let d := ProjectConfig.chained "d" none
    let b := { ProjectConfig.chained "b" (some "d") with vcs := .cvs, repository := "b!" }
    let a := { ProjectConfig.chained "a" (some "b") with vcs := .cvs, repository := "a!" }
    let r := c.calls [.register a, .register b, .compileAll, .register d]
    let o := c.resolve r "a"
    c.Walks r [] "a" (.ok ["a", "b", "d"]) ∧ r.Malformed "a" ∧ r.Malformed "b" ∧
    o.result = .error (.malformedLocator "b!") ∧ o.registry.resolvedNames = ["d"] := by
  intro c d b a r o
  have ha : r.get? "a" = some ⟨a, .unresolved⟩ := by decide +kernel
  have hb : r.get? "b" = some ⟨b, .unresolved⟩ := by decide +kernel
  have hd : r.get? "d" = some ⟨d, .unresolved⟩ := by decide +kernel
  have hwalk : c.Walks r [] "a" (.ok ["a", "b", "d"]) :=
    .step (by decide) ha (by decide) rfl <| .step (by decide) hb (by decide) rfl <|
      .root (by decide) hd (by decide) rfl
  have hma : a.LocatorMalformed := by decide +kernel
  have hmb : b.LocatorMalformed := by decide +kernel
  have hmd : ∀ n ∈ ["d"], ¬ r.Malformed n := by
    intro n hn
    cases List.mem_singleton.mp hn
    rintro ⟨p, hp, hm⟩
    cases (Registry.config?_of_get? hd).symm.trans hp
    exact absurd hm (by decide)
  have hback := (c.resolve_reports_fault _ "a").2.2 _ hwalk
  obtain ⟨hres, hr⟩ :=
    hback.malformed ["a"] "b" ["d"] b rfl (Registry.config?_of_get? hb) hmb hmd
  refine ⟨hwalk, ⟨a, Registry.config?_of_get? ha, hma⟩, ⟨b, Registry.config?_of_get? hb, hmb⟩,
    hres, ?_⟩
  rw [hr.resolvedNames_eq]
  decide +kernel

end Compiler

end BuildPlan
