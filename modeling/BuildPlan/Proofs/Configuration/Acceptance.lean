import BuildPlan.CommandLine
import BuildPlan.Proofs.Compiler.Acceptance
import BuildPlan.Proofs.Configuration.Reading

/-!
# Documents that compile

Whether a document that can be read compiles is a matter of its projects, each looked at together with
its ancestors; neither the order of the projects nor the credentials count.
-/

namespace BuildPlan.Configuration

variable {credentials : CredentialStore} {text : String} {c : Configuration}

/-- The compiler of a document knows a worker of the project if the master lists one. -/
theorem knowsWorkerOf_compiler_iff {p : ProjectConfig} :
    c.compiler.knowsWorkerOf p ↔ ∃ worker ∈ p.workers, worker ∈ c.master.workers := by
  show p.workers.any (WorkerDirectory.ofList c.master.workers) = true ↔ _
  simp [WorkerDirectory.ofList]

/-- A project of a document is accepted by its compiler. -/
theorem accepts_fresh_iff (h : (c.projects.map ProjectConfig.name).Nodup) {p : ProjectConfig} :
    c.compiler.Accepts (.fresh c.projects) p ↔
      (∃ worker ∈ p.workers, worker ∈ c.master.workers) ∧
      (∀ parent, p.schedule.dependent = some parent → ∃ q ∈ c.projects, q.name = parent) ∧
      (∀ walk, (p.name :: walk).IsChain (DependsAmong c.projects) → (p.name :: walk).Nodup) ∧
      (p.vcs = .cvs → ∃ root module, p.repository = root ++ "!" ++ module ∧
        IsLocatorPart root ∧ IsLocatorPart module) := by
  rw [← knowsWorkerOf_compiler_iff, ← ProjectConfig.not_locatorMalformed_iff,
    ← Registry.dependsOn_fresh h]
  have hnames : ∀ parent, (Registry.fresh c.projects).contains parent ↔
      ∃ q ∈ c.projects, q.name = parent := by
    intro parent
    rw [← Registry.mem_keys_iff_contains, Registry.keys_fresh, List.mem_map]
  constructor
  · intro ha
    exact ⟨ha.knowsWorker, fun parent hp => (hnames parent).mp (ha.parent_mem parent hp),
      ha.noReturn, ha.locator⟩
  · rintro ⟨hw, hp, hr, hl⟩
    exact ⟨hw, fun parent hd => (hnames parent).mpr (hp parent hd), hr, hl⟩

/-- The projects of a document that has been read can be registered, so what is left is to compile
them. -/
theorem compileConfiguration_eq_ok_iff (h : (c.projects.map ProjectConfig.name).Nodup)
    (path : String) {master : MasterPlan} :
    CommandLine.compileConfiguration path c = .ok master ↔
      (c.compiler.compileAll (.fresh c.projects)).result = .ok master := by
  unfold CommandLine.compileConfiguration
  rw [Registry.ofConfigs_of_nodup h]
  exact mapError_eq_ok_iff

/-- What can be told of a document by reading and compiling it. -/
theorem exists_of_run {α : Type} (credentials : CredentialStore) (text path : String)
    (f : Configuration → MasterPlan → α) (a : α)
    (h : ((parse credentials text).toOption.map fun c =>
      (CommandLine.compileConfiguration path c).toOption.map fun m => f c m) = some (some a)) :
    ∃ c master, parse credentials text = .ok c ∧
      CommandLine.compileConfiguration path c = .ok master ∧ f c master = a := by
  obtain ⟨c, hc, hcompile⟩ := Option.map_eq_some_iff.mp h
  obtain ⟨master, hm, hf⟩ := Option.map_eq_some_iff.mp hcompile
  exact ⟨c, master, eq_ok_of_toOption hc, eq_ok_of_toOption hm, hf⟩

/-- **Which documents compile.**  A document that has been read compiles if and only if each project has a
worker that the master lists, waits for no project or for a declared one, never comes back on the way
along parents to a project that has been passed, and, if it is hosted in CVS, has a root and a module for
its repository. -/
theorem compiles_iff (h : Configuration.parse credentials text = .ok c) (path : String) :
    (∃ master, CommandLine.compileConfiguration path c = .ok master) ↔
      ∀ p ∈ c.projects,
        (∃ worker ∈ p.workers, worker ∈ c.master.workers) ∧
        (∀ parent, p.schedule.dependent = some parent → ∃ q ∈ c.projects, q.name = parent) ∧
        (∀ walk, (p.name :: walk).IsChain (DependsAmong c.projects) → (p.name :: walk).Nodup) ∧
        (p.vcs = .cvs → ∃ root module, p.repository = root ++ "!" ++ module ∧
          IsLocatorPart root ∧ IsLocatorPart module) := by
  have hnd := names_nodup_of_parse h
  have hset : c.compiler.Settled (.fresh c.projects) := Compiler.settled_fresh hnd
  simp only [compileConfiguration_eq_ok_iff hnd, hset.compileAll_eq_ok_iff rfl,
    Registry.configs_fresh, accepts_fresh_iff hnd]

/-- A project is declared before its parent, has one worker that the master does not list, and waits for
a project from CVS. -/
theorem compiles_parent_behind :
    let text :=
      "master \x7b\n workers \"w\"\n\x7d\n" ++
        "project \"a\" \x7b\n repository \"r\"\n workers \"v\" \"w\"\n dependent-scheduler \"b\"\n\x7d\n" ++
        "project \"b\" \x7b\n vcs \"cvs\"\n repository \"r!m\"\n workers \"w\"\n\x7d\n"
    ∃ c master, Configuration.parse (fun _ => none) text = .ok c ∧
      CommandLine.compileConfiguration "ci.kdl" c = .ok master ∧
      c.projects.map ProjectConfig.name = ["a", "b"] ∧
      ∀ p ∈ c.projects, ∀ walk, (p.name :: walk).IsChain (DependsAmong c.projects) →
        (p.name :: walk).Nodup := by
  intro text
  obtain ⟨c, master, hc, hm, hnames⟩ := exists_of_run (fun _ => none) text "ci.kdl"
    (fun c _ => c.projects.map ProjectConfig.name) ["a", "b"] (by decide +kernel)
  refine ⟨c, master, hc, hm, hnames, fun p hp => ?_⟩
  exact ((compiles_iff hc "ci.kdl").mp ⟨master, hm⟩ p hp).2.2.1

end BuildPlan.Configuration
