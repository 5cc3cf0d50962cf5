import BuildPlan.Proofs.Project.Plain
import BuildPlan.Proofs.Registry.Consistency
import BuildPlan.Proofs.Resolution.Equation
import BuildPlan.Proofs.Resolution.Order

/-!
# Resolution is a depth-first search

An assembler that has the dependencies of each project resolved in order, and passes the first error on,
searches the graph of dependencies: the projects on the stack are a path from the root, those resolved
are listed behind their dependencies, and an error is explained by what can be reached from the root
(`search_resolveWithin`).  So a resolution succeeds just when nothing that can be reached is unknown,
fails by itself or lies on a loop (`resolve_depth_first`).
-/

namespace BuildPlan

open Relation

variable {ε : Type}

/-! ### Assemblers that stop at errors -/

namespace Script

/-- The script does nothing more than report, and ends with some error. -/
def GivesUp : Script ε → Prop
  | .finish result => ∃ e, result = .error e
  | .emit _ next => next.GivesUp
  | .inspect next => ∀ r, (next r).GivesUp
  | .register _ _ => False
  | .resolve _ _ => False

/-- The script registers nothing, and gives up as soon as a project cannot be resolved. -/
def StopsAtErrors : Script ε → Prop
  | .finish _ => True
  | .emit _ next => next.StopsAtErrors
  | .inspect next => ∀ r, (next r).StopsAtErrors
  | .register _ _ => False
  | .resolve _ next => (∀ plan, (next (.ok plan)).StopsAtErrors) ∧ ∀ e, (next (.error e)).GivesUp

theorem GivesUp.registersNothing {s : Script ε} (h : s.GivesUp) : s.RegistersNothing := by
  induction s with
  | finish result => trivial
  | emit event next ih => exact ih h
  | inspect next ih => exact fun r => ih r (h r)
  | register config next => exact h.elim
  | resolve name next => exact h.elim

theorem StopsAtErrors.registersNothing {s : Script ε} (h : s.StopsAtErrors) : s.RegistersNothing := by
  induction s with
  | finish result => trivial
  | emit event next ih => exact ih h
  | inspect next ih => exact fun r => ih r (h r)
  | register config next => exact h.elim
  | resolve name next ih =>
    intro answer
    cases answer with
    | ok plan => exact ih _ (h.1 plan)
    | error e => exact (h.2 e).registersNothing

end Script

namespace Assembler

/-- Every assembly gives up as soon as a project cannot be resolved. -/
def StopsAtErrors (a : Assembler ε) : Prop :=
  ∀ config, (a.assemble config).StopsAtErrors

theorem StopsAtErrors.registersNothing {a : Assembler ε} (h : a.StopsAtErrors) : a.RegistersNothing :=
  fun config => (h config).registersNothing

end Assembler

/-! ### Assemblers that search -/

namespace Script

/-- The script does nothing more than report, and ends with the error. -/
def PassesOn (e : CompileError) : Script ε → Prop
  | .finish result => result = .error e
  | .emit _ next => next.PassesOn e
  | .inspect next => ∀ r, (next r).PassesOn e
  | .register _ _ => False
  | .resolve _ _ => False

/-- The script has the listed projects resolved in order and passes the first error on.  Besides, it
fails with its own error, at whatever time, if it has one, and succeeds if it has none. -/
def Searches (own : Option CompileError) : Script ε → List String → Prop
  | .finish (.ok _), deps => deps = [] ∧ own = none
  | .finish (.error e), _ => own = some e
  | .emit _ next, deps => next.Searches own deps
  | .inspect next, deps => ∀ r, (next r).Searches own deps
  | .register _ _, _ => False
  | .resolve name next, deps =>
    ∃ rest, deps = name :: rest ∧ (∀ plan, (next (.ok plan)).Searches own rest) ∧
      ∀ e, (next (.error e)).PassesOn e

theorem PassesOn.givesUp {e : CompileError} {s : Script ε} (h : s.PassesOn e) : s.GivesUp := by
  induction s with
  | finish result => exact ⟨e, h⟩
  | emit event next ih => exact ih h
  | inspect next ih => exact fun r => ih r (h r)
  | register config next => exact h.elim
  | resolve name next => exact h.elim

theorem Searches.stopsAtErrors {own : Option CompileError} {s : Script ε} {deps : List String}
    (h : s.Searches own deps) : s.StopsAtErrors := by
  induction s generalizing deps with
  | finish result => trivial
  | emit event next ih => exact ih h
  | inspect next ih => exact fun r => ih r (h r)
  | register config next => exact h.elim
  | resolve name next ih =>
    obtain ⟨rest, -, hok, herror⟩ := h
    exact ⟨fun plan => ih _ (hok plan), fun e => (herror e).givesUp⟩

/-- What passes an error on leaves the registry alone. -/
theorem PassesOn.run {nested : Registry → String → Option (Outcome ε ProjectPlan)}
    {e : CompileError} {s : Script ε} (h : s.PassesOn e) {r : Registry}
    {o : Outcome ε ProjectPlan} (hr : s.run nested r = some o) :
    o.result = .error e ∧ o.registry = r := by
  induction s generalizing o with
  | finish result =>
    cases hr
    exact ⟨h, rfl⟩
  | emit event next ih =>
    obtain ⟨o₁, h₁, rfl⟩ := Option.map_eq_some_iff.mp hr
    have := ih h h₁
    exact this
  | inspect next ih => exact ih r (h r) hr
  | register config next => exact h.elim
  | resolve name next => exact h.elim

/-- Has projects resolved in order, passing the first error on, before the rest. -/
def resolveAll : List String → Script ε → Script ε
  | [], rest => rest
  | name :: names, rest => .resolve name fun
    | .ok _ => resolveAll names rest
    | .error e => .finish (.error e)

theorem searches_resolveAll {own : Option CompileError} {rest : Script ε}
    (h : rest.Searches own []) (names : List String) :
    (resolveAll names rest).Searches own names := by
  induction names with
  | nil => exact h
  | cons name names ih => exact ⟨names, rfl, fun _ => ih, fun _ => rfl⟩

end Script

/-- An assembler that searches: each project has a list of dependencies and perhaps an error of its own,
which is none of those that a search gives. -/
structure DependencySearch (ε : Type) extends Assembler ε where
  dependencies : ProjectConfig → List String
  ownError : ProjectConfig → Option CompileError
  searches : ∀ config, (assemble config).Searches (ownError config) (dependencies config)
  own_ne_cycle : ∀ config path, ownError config ≠ some (.dependencyCycle path)
  own_ne_unknown : ∀ config name, ownError config ≠ some (.unknownDependency name)

namespace DependencySearch

theorem stopsAtErrors (g : DependencySearch ε) : g.toAssembler.StopsAtErrors :=
  fun config => (g.searches config).stopsAtErrors

theorem registersNothing (g : DependencySearch ε) : g.toAssembler.RegistersNothing :=
  g.stopsAtErrors.registersNothing

/-- The project of the one name lists the other among its dependencies. -/
def Needs (g : DependencySearch ε) (r : Registry) (name m : String) : Prop :=
  ∃ config, r.config? name = some config ∧ m ∈ g.dependencies config

/-- The other name can be reached from the one along dependencies. -/
def Reaches (g : DependencySearch ε) (r : Registry) : String → String → Prop :=
  ReflTransGen (g.Needs r)

/-- What has to be the case for a search from `root` to fail with the error. -/
def Explains (g : DependencySearch ε) (r : Registry) (root : String) : CompileError → Prop
  | .dependencyCycle path => IsLoop (g.Needs r) path ∧ ∀ m ∈ path, g.Reaches r root m
  | .unknownDependency m => g.Reaches r root m ∧ r.get? m = none
  | e => ∃ m config, g.Reaches r root m ∧ r.config? m = some config ∧ g.ownError config = some e

variable {g : DependencySearch ε} {r₀ r : Registry} {root name : String} {config : ProjectConfig}

theorem explains_own {e : CompileError} (hr : g.Reaches r₀ root name)
    (hc : r₀.config? name = some config) (he : g.ownError config = some e) :
    g.Explains r₀ root e := by
  cases e with
  | dependencyCycle path => exact absurd he (g.own_ne_cycle config path)
  | unknownDependency m => exact absurd he (g.own_ne_unknown config m)
  | invalidWorkerSet workers => exact ⟨name, config, hr, hc, he⟩
  | unsupportedVcs text => exact ⟨name, config, hr, hc, he⟩
  | malformedSchedule option text => exact ⟨name, config, hr, hc, he⟩
  | malformedLocator locator => exact ⟨name, config, hr, hc, he⟩
  | invalidConfig fault => exact ⟨name, config, hr, hc, he⟩

/-! ### The invariant of a search -/

/-- The registry in a search from `root` that began with `r₀`. -/
structure Searching (g : DependencySearch ε) (r₀ : Registry) (root : String) (r : Registry) :
    Prop where
  consistent : r.Consistent
  config_eq : r.config? = r₀.config?
  path : r.stack.IsChain (g.Needs r₀)
  reached : ∀ name, name ∈ r.stack ∨ name ∈ r.resolvedNames → g.Reaches r₀ root name
  sound : ∀ name ∈ r.resolvedNames, ∃ config,
    r₀.config? name = some config ∧ g.ownError config = none
  ordered : DependenciesFirst (g.Needs r₀) r.resolvedNames

/-- A name that the innermost project under way, if there is one, asks for. -/
def Asked (g : DependencySearch ε) (r₀ : Registry) (root : String) (r : Registry)
    (name : String) : Prop :=
  g.Reaches r₀ root name ∧ ∀ last ∈ r.stack.getLast?, g.Needs r₀ last name

namespace Searching

theorem enter (h : g.Searching r₀ root r) (ha : g.Asked r₀ root r name)
    (he : r.get? name = some ⟨config, .unresolved⟩) : g.Searching r₀ root (r.enter name) where
  consistent := h.consistent.enter he
  config_eq := by rw [Registry.config?_enter, h.config_eq]
  path := by
    rw [Registry.stack_enter]
    refine h.path.append (List.isChain_singleton name) fun last hl y hy => ?_
    have hy' : name = y := by simpa using hy
    exact hy' ▸ ha.2 last hl
  reached n hn := by
    rw [Registry.stack_enter, List.mem_append, List.mem_singleton] at hn
    rcases hn with (hn | rfl) | hn
    · exact h.reached n (Or.inl hn)
    · exact ha.1
    · exact h.reached n (Or.inr hn)
  sound := h.sound
  ordered := h.ordered

theorem leave_error {below : List String} (h : g.Searching r₀ root r)
    (hs : r.stack = below ++ [name]) (e : CompileError) :
    g.Searching r₀ root (r.leave name (.error e)) where
  consistent := h.consistent.leave hs _
  config_eq := by rw [Registry.config?_leave, h.config_eq]
  path := by
    rw [Registry.stack_leave]
    exact h.path.dropLast
  reached n hn := by
    rw [Registry.stack_leave] at hn
    exact h.reached n (hn.imp_left (List.dropLast_subset _ ·))
  sound := h.sound
  ordered := h.ordered

theorem leave_ok {below : List String} (h : g.Searching r₀ root r)
    (hs : r.stack = below ++ [name]) (hc : r₀.config? name = some config)
    (hown : g.ownError config = none) (hdeps : ∀ m ∈ g.dependencies config, m ∈ r.resolvedNames)
    (plan : ProjectPlan) : g.Searching r₀ root (r.leave name (.ok plan)) where
  consistent := h.consistent.leave hs _
  config_eq := by rw [Registry.config?_leave, h.config_eq]
  path := by
    rw [Registry.stack_leave]
    exact h.path.dropLast
  reached n hn := by
    rw [Registry.stack_leave, Registry.resolvedNames_leave_ok, List.mem_append,
      List.mem_singleton] at hn
    rcases hn with hn | hn | rfl
    · exact h.reached n (Or.inl (List.dropLast_subset _ hn))
    · exact h.reached n (Or.inr hn)
    · exact h.reached n (Or.inl (by simp [hs]))
  sound n hn := by
    rw [Registry.resolvedNames_leave_ok, List.mem_append, List.mem_singleton] at hn
    rcases hn with hn | rfl
    · exact h.sound n hn
    · exact ⟨config, hc, hown⟩
  ordered := by
    rw [Registry.resolvedNames_leave_ok]
    -- the new name comes last, so only its own dependencies matter
    refine h.ordered.concat ?_
    rintro m ⟨config', hc', hm⟩
    cases hc.symm.trans hc'
    exact hdeps m hm

end Searching

/-! ### Runs keep the invariant -/

/-- What has become of a registry when a search inside of it has come to an end. -/
structure Searched (g : DependencySearch ε) (r₀ : Registry) (root : String) (r r' : Registry) :
    Prop where
  searching : g.Searching r₀ root r'
  stack_eq : r'.stack = r.stack
  grows : ∀ m ∈ r.resolvedNames, m ∈ r'.resolvedNames

namespace Searched

variable {r₁ r₂ : Registry}

theorem refl (h : g.Searching r₀ root r) : g.Searched r₀ root r r :=
  ⟨h, rfl, fun _ hm => hm⟩

theorem trans (h : g.Searched r₀ root r r₁) (h' : g.Searched r₀ root r₁ r₂) :
    g.Searched r₀ root r r₂ :=
  ⟨h'.searching, h'.stack_eq.trans h.stack_eq, fun m hm => h'.grows m (h.grows m hm)⟩

end Searched

/-- The error is explained, or else `success` holds. -/
def Answers (g : DependencySearch ε) (r₀ : Registry) (root : String) (success : Prop) :
    Except CompileError ProjectPlan → Prop
  | .ok _ => success
  | .error e => g.Explains r₀ root e

variable {nested : Registry → String → Option (Outcome ε ProjectPlan)}

/-- A script that searches on behalf of `name`, whose dependencies are resolved up to `deps`. -/
theorem search_run
    (hn : ∀ r name o, nested r name = some o → g.Searching r₀ root r → g.Asked r₀ root r name →
      g.Searched r₀ root r o.registry ∧
        g.Answers r₀ root (name ∈ o.registry.resolvedNames) o.result)
    (hc : r₀.config? name = some config) (script : Script ε) :
    ∀ (done deps below : List String) (r : Registry) (o : Outcome ε ProjectPlan),
      script.Searches (g.ownError config) deps → g.dependencies config = done ++ deps →
      (∀ m ∈ done, m ∈ r.resolvedNames) → g.Searching r₀ root r → r.stack = below ++ [name] →
      script.run nested r = some o →
      g.Searched r₀ root r o.registry ∧ g.Answers r₀ root (g.ownError config = none ∧
        ∀ m ∈ g.dependencies config, m ∈ o.registry.resolvedNames) o.result := by
  -- by induction on the script: `done` has been resolved, and `deps` is still to be asked for
  induction script with
  | finish result =>
    intro done deps below r o hs hd hdone hr hst h
    cases h
    refine ⟨.refl hr, ?_⟩
    have hreach : g.Reaches r₀ root name := hr.reached name (Or.inl (by simp [hst]))
    cases result with
    | ok plan =>
      obtain ⟨rfl, hown⟩ := hs
      rw [List.append_nil] at hd
      exact ⟨hown, hd ▸ hdone⟩
    | error e => exact explains_own hreach hc hs
  | emit event next ih =>
    intro done deps below r o hs hd hdone hr hst h
    obtain ⟨o₁, h₁, rfl⟩ := Option.map_eq_some_iff.mp h
    exact ih done deps below r o₁ hs hd hdone hr hst h₁
  | inspect next ih =>
    intro done deps below r o hs hd hdone hr hst h
    exact ih r done deps below r o (hs r) hd hdone hr hst h
  | register config next =>
    intro done deps below r o hs
    exact hs.elim
  | resolve asked next ih =>
    intro done deps below r o hs hd hdone hr hst h
    obtain ⟨rest, rfl, hok, herror⟩ := hs
    have hneeds : g.Needs r₀ name asked := ⟨config, hc, by simp [hd]⟩
    have hreach : g.Reaches r₀ root name := hr.reached name (Or.inl (by simp [hst]))
    -- `name` is the innermost project under way, and it needs the one that is asked for
    have hasked : g.Asked r₀ root r asked := by
      refine ⟨hreach.tail hneeds, fun last hl => ?_⟩
      have hl' : name = last := by simpa [hst] using hl
      exact hl' ▸ hneeds
    obtain ⟨o₁, o₂, h₁, h₂, rfl⟩ := Script.run_resolve_eq_some_iff.mp h
    obtain ⟨hr₁, ha₁⟩ := hn r asked o₁ h₁ hr hasked
    cases hres : o₁.result with
    | ok plan =>
      rw [hres] at h₂ ha₁
      have hdone₁ : ∀ m ∈ done ++ [asked], m ∈ o₁.registry.resolvedNames := by
        intro m hm
        rw [List.mem_append, List.mem_singleton] at hm
        rcases hm with hm | rfl
        · exact hr₁.grows m (hdone m hm)
        · exact ha₁
      obtain ⟨hr₂, ha₂⟩ := ih (.ok plan) (done ++ [asked]) rest below o₁.registry o₂ (hok plan)
        (by rw [hd, List.append_assoc, List.singleton_append]) hdone₁ hr₁.searching
        (hr₁.stack_eq.trans hst) h₂
      exact ⟨hr₁.trans hr₂, ha₂⟩
    | error e =>
      rw [hres] at h₂ ha₁
      -- the script passes the error on and touches nothing any more
      obtain ⟨hres₂, hreg₂⟩ := (herror e).run h₂
      have hreg : (o₂.after o₁.events).registry = o₁.registry := hreg₂
      have hresult : (o₂.after o₁.events).result = .error e := hres₂
      rw [hreg, hresult]
      exact ⟨hr₁, ha₁⟩

/-- A resolution keeps the invariant of the search, and either the project is resolved then or the error
is explained. -/
theorem search_resolveWithin (depth : ℕ) (r : Registry) (name : String) (o : Outcome ε ProjectPlan)
    (h : g.resolveWithin depth r name = some o) :
    g.Searching r₀ root r → g.Asked r₀ root r name →
      g.Searched r₀ root r o.registry ∧
        g.Answers r₀ root (name ∈ o.registry.resolvedNames) o.result := by
  refine g.resolveWithin_induction
    (motive := fun _ r name o => g.Searching r₀ root r → g.Asked r₀ root r name →
      g.Searched r₀ root r o.registry ∧
        g.Answers r₀ root (name ∈ o.registry.resolvedNames) o.result)
    (fun _ r name he hr ha => ?_) (fun _ r name config plan he hr ha => ?_)
    (fun _ r name config he hr ha => ?_) (fun _ r name config o he ih hrun hr ha => ?_)
    depth r name o h
  · refine ⟨.refl hr, ha.1, ?_⟩
    rw [← Registry.config?_eq_none_iff, ← hr.config_eq, Registry.config?_eq_none_iff]
    exact he
  · exact ⟨.refl hr, (hr.consistent.mem_resolved_iff name).mpr ⟨plan, Registry.state?_of_get? he⟩⟩
  · -- the stack leads from `name` to the innermost project, which needs `name`
    have hm : name ∈ r.stack := (hr.consistent.mem_stack_iff name).mpr (Registry.state?_of_get? he)
    rw [Registry.loop_of_mem hm]
    refine ⟨.refl hr, isLoop_dropWhile hr.path hr.consistent.stack_nodup hm ha.2, fun m hm => ?_⟩
    rcases List.mem_append.mp hm with hm | hm
    · exact hr.reached m (Or.inl ((List.dropWhile_sublist _).subset hm))
    · exact List.mem_singleton.mp hm ▸ ha.1
  · have hc : r₀.config? name = some config := by
      rw [← hr.config_eq]
      exact Registry.config?_of_get? he
    -- to begin with, nothing is done and all dependencies are to be asked for
    obtain ⟨hr₁, ha₁⟩ := search_run ih hc (g.assemble config) [] (g.dependencies config) r.stack
      (r.enter name) o (g.searches config) rfl (by simp) (hr.enter ha he) rfl hrun
    have hst : o.registry.stack = r.stack ++ [name] := hr₁.stack_eq
    have hst' : (o.registry.leave name o.result).stack = r.stack := by
      rw [Registry.stack_leave, hst, List.dropLast_concat]
    cases hres : o.result with
    | ok plan =>
      rw [hres] at ha₁ hst'
      refine ⟨⟨hr₁.searching.leave_ok hst hc ha₁.1 ha₁.2 plan, hst', fun m hm => ?_⟩, ?_⟩
      · exact List.mem_append_left _ (hr₁.grows m hm)
      · exact List.mem_append_right _ (List.mem_singleton_self name)
    | error e =>
      rw [hres] at ha₁ hst'
      exact ⟨⟨hr₁.searching.leave_error hst e, hst', fun m hm => hr₁.grows m hm⟩, ha₁⟩

/-! ### The whole search -/

theorem searching_start (hr : r.Consistent) (hu : ∀ e ∈ r.entries, e.state = .unresolved) :
    g.Searching r name r := by
  obtain ⟨hs, hl⟩ := hr.idle_of_unresolved hu
  refine ⟨hr, rfl, ?_, fun n hn => ?_, fun n hn => ?_, ?_⟩
  · rw [hs]
    exact List.isChain_nil
  · simp [hs, hl] at hn
  · simp [hl] at hn
  · rw [hl]
    exact DependenciesFirst.nil

/-- A search that begins with nothing resolved. -/
theorem searched_resolve (hr : r.Consistent) (hu : ∀ e ∈ r.entries, e.state = .unresolved)
    (name : String) :
    g.Searched r name r (g.resolve g.registersNothing r name).registry ∧
      g.Answers r name (name ∈ (g.resolve g.registersNothing r name).registry.resolvedNames)
        (g.resolve g.registersNothing r name).result := by
  have hw := Assembler.resolveWithin_eq_resolve g.registersNothing r name
  refine search_resolveWithin _ r name _ hw (searching_start hr hu) ⟨.refl, fun last hl => ?_⟩
  simp [(hr.idle_of_unresolved hu).1] at hl

/-- If nothing that can be reached is unknown, fails by itself or lies on a loop, then no error can be
explained. -/
theorem not_explains {e : CompileError} (hknown : ∀ m, g.Reaches r name m → r.contains m)
    (hown : ∀ m config, g.Reaches r name m → r.config? m = some config → g.ownError config = none)
    (hloop : ∀ m, g.Reaches r name m → ¬ TransGen (g.Needs r) m m) : ¬ g.Explains r name e := by
  -- the errors that projects have by themselves are refuted in one way
  have refuted : ∀ e', (∃ m config, g.Reaches r name m ∧ r.config? m = some config ∧
      g.ownError config = some e') → False := by
    rintro e' ⟨m, config, hm, hc, he⟩
    rw [hown m config hm hc] at he
    cases he
  intro he
  cases e with
  | dependencyCycle path =>
    obtain ⟨start, hs, ht⟩ := he.1.transGen
    exact hloop start (he.2 start hs) ht
  | unknownDependency m =>
    obtain ⟨e, hm⟩ := Registry.contains_iff.mp (hknown m he.1)
    rw [he.2] at hm
    cases hm
  | invalidWorkerSet workers => exact refuted _ he
  | unsupportedVcs text => exact refuted _ he
  | malformedSchedule option text => exact refuted _ he
  | malformedLocator locator => exact refuted _ he
  | invalidConfig fault => exact refuted _ he

/-- **Resolution is a depth-first search.**  In a registry of unresolved projects, a resolution succeeds
if and only if all that can be reached is registered, does not fail by itself, and lies on no loop.
Then what can be reached is resolved, each project once and behind its dependencies.  A loop that is
reported is one that can be reached, and so is an unknown project; any other error is a project's own.
Whatever has been resolved before an error stands behind its dependencies too. -/
theorem resolve_depth_first (g : DependencySearch ε) (r : Registry) (hr : r.Consistent)
    (hu : ∀ e ∈ r.entries, e.state = .unresolved) (name : String) :
    let o := g.resolve g.registersNothing r name
    ((∃ plan, o.result = .ok plan) ↔
      (∀ m, g.Reaches r name m → r.contains m) ∧
      (∀ m config, g.Reaches r name m → r.config? m = some config → g.ownError config = none) ∧
      ∀ m, g.Reaches r name m → ¬ TransGen (g.Needs r) m m) ∧
    ((∃ plan, o.result = .ok plan) → ∃ added,
      o.registry.resolvedNames = r.resolvedNames ++ added ∧
      (∀ m, m ∈ added ↔ g.Reaches r name m) ∧ added.Nodup ∧
      DependenciesFirst (g.Needs r) added) ∧
    (∀ path, o.result = .error (.dependencyCycle path) →
      IsLoop (g.Needs r) path ∧ ∀ m ∈ path, g.Reaches r name m) ∧
    (∀ m, o.result = .error (.unknownDependency m) → g.Reaches r name m ∧ ¬ r.contains m) ∧
    (∀ e, o.result = .error e → (∀ path, e ≠ .dependencyCycle path) →
      (∀ m, e ≠ .unknownDependency m) →
      ∃ m config, g.Reaches r name m ∧ r.config? m = some config ∧ g.ownError config = some e) ∧
    (∀ m ∈ o.registry.resolvedNames, g.Reaches r name m) ∧
    DependenciesFirst (g.Needs r) o.registry.resolvedNames ∧
    o.registry.Consistent ∧ o.registry.stack = r.stack := by
  intro o
  obtain ⟨hstate, hanswer⟩ : g.Searched r name r o.registry ∧
      g.Answers r name (name ∈ o.registry.resolvedNames) o.result := searched_resolve hr hu name
  have hs := hstate.searching
  have herror : ∀ e, o.result = .error e → g.Explains r name e := by
    intro e he
    rw [he] at hanswer
    exact hanswer
  have hok : ∀ plan, o.result = .ok plan →
      ∀ m, g.Reaches r name m → m ∈ o.registry.resolvedNames := by
    intro plan hp m hm
    rw [hp] at hanswer
    exact hs.ordered.mem_of_reflTransGen hanswer hm
  refine ⟨⟨?_, ?_⟩, ?_, fun path hp => herror _ hp, ?_, ?_, fun m hm => hs.reached m (Or.inr hm),
    hs.ordered, hs.consistent, hstate.stack_eq⟩
  · rintro ⟨plan, hp⟩
    refine ⟨fun m hm => ?_, fun m config hm hc => ?_, fun m hm => ?_⟩
    · obtain ⟨config, hc, -⟩ := hs.sound m (hok plan hp m hm)
      rw [← Registry.config?_isSome, hc]
      rfl
    · obtain ⟨config', hc', hown⟩ := hs.sound m (hok plan hp m hm)
      cases hc.symm.trans hc'
      exact hown
    · exact hs.ordered.not_transGen_self hs.consistent.resolved_nodup (hok plan hp m hm)
  · -- an error would have to be explained
    rintro ⟨hknown, hown, hloop⟩
    cases hres : o.result with
    | ok plan => exact ⟨plan, rfl⟩
    | error e => exact absurd (herror e hres) (not_explains hknown hown hloop)
  · rintro ⟨plan, hp⟩
    refine ⟨o.registry.resolvedNames, ?_, fun m => ⟨fun hm => ?_, hok plan hp m⟩,
      hs.consistent.resolved_nodup, hs.ordered⟩
    · rw [(hr.idle_of_unresolved hu).2, List.nil_append]
    · exact hs.reached m (Or.inr hm)
  · intro m hm
    refine ⟨(herror _ hm).1, fun hc => ?_⟩
    obtain ⟨e, he⟩ := Registry.contains_iff.mp hc
    rw [(herror _ hm).2] at he
    cases he
  · intro e he hcycle hunknown
    have hx := herror e he
    cases e with
    | dependencyCycle path => exact absurd rfl (hcycle path)
    | unknownDependency m => exact absurd rfl (hunknown m)
    | invalidWorkerSet workers => exact hx
    | unsupportedVcs text => exact hx
    | malformedSchedule option text => exact hx
    | malformedLocator locator => exact hx
    | invalidConfig fault => exact hx

/-- The search of a given graph, whose nodes have builds of no kind and may have a fault. -/
def ofGraph (dependencies : String → List String) (fault : String → Option ConfigFault) :
    DependencySearch RegistryEvent where
  assemble config := Script.resolveAll (dependencies config.name) <| .finish <|
    match fault config.name with
    | some reason => .error (.invalidConfig reason)
    | none => .ok { name := config.name, schedulers := [], builders := [], notifier := none }
  report := id
  dependencies config := dependencies config.name
  ownError config := (fault config.name).map .invalidConfig
  searches config := by
    refine Script.searches_resolveAll ?_ _
    cases fault config.name with
    | some reason => rfl
    | none => exact ⟨rfl, rfl⟩
  own_ne_cycle config path := by simp
  own_ne_unknown config name := by simp

/-- Two ways lead to `d`, and the second one goes on into a loop. -/
def forked : String → List String
  | "a" => ["b", "c"]
  | "b" => ["d"]
  | "c" => ["d", "e"]
  | "e" => ["c"]
  | _ => []

theorem resolve_forked :
    let g := ofGraph forked fun _ => none
    let r := Registry.fresh (["a", "b", "c", "d", "e"].map .plain)
    r.Consistent ∧ (∀ e ∈ r.entries, e.state = .unresolved) ∧
    (g.resolve g.registersNothing r "a").result = .error (.dependencyCycle ["c", "e", "c"]) ∧
    (g.resolve g.registersNothing r "a").registry.resolvedNames = ["d", "b"] ∧
    IsLoop (g.Needs r) ["c", "e", "c"] ∧ (∀ m ∈ ["c", "e", "c"], g.Reaches r "a" m) ∧
    DependenciesFirst (g.Needs r) ["d", "b"] := by
  intro g r
  have hr : r.Consistent := Registry.consistent_fresh (by decide)
  have hu : ∀ e ∈ r.entries, e.state = .unresolved := fun _ => Registry.state_of_mem_fresh
  have hloop : (g.resolve g.registersNothing r "a").result =
      .error (.dependencyCycle ["c", "e", "c"]) := by rfl
  have hlist : (g.resolve g.registersNothing r "a").registry.resolvedNames = ["d", "b"] := by rfl
  obtain ⟨-, -, h₁, -, -, -, h₂, -⟩ := resolve_depth_first g r hr hu "a"
  exact ⟨hr, hu, hloop, hlist, (h₁ _ hloop).1, (h₁ _ hloop).2, hlist ▸ h₂⟩

end DependencySearch

end BuildPlan
