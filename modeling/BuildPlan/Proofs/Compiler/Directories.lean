import BuildPlan.Proofs.Compiler.Acceptance
import BuildPlan.Proofs.Compiler.Translation

/-!
# Compiling with other directories of workers

A directory is asked whether a project has a known worker, and nothing that is made of the project depends
on which workers are known.  So all that a directory can do is to let a compilation pass or not
(`compileAll_gated_by_directory`): what passes with two directories is the same, and what passes with one
passes with every directory that knows more workers.
-/

namespace BuildPlan

/-- Whether the event warns of unknown workers. -/
def Event.isWorkerWarning : Event → Bool
  | .workersUnknown _ _ => true
  | _ => false

namespace Compiler

variable {c : Compiler} {r : Registry} {p : ProjectConfig} {one two : WorkerDirectory}
  {master : MasterPlan}

/-- The compiler with another directory of workers. -/
def withDirectory (c : Compiler) (directory : WorkerDirectory) : Compiler :=
  { c with workers := directory }

theorem knowsWorkerOf_withDirectory_iff :
    (c.withDirectory one).knowsWorkerOf p ↔ ∃ worker ∈ p.workers, one worker :=
  List.any_eq_true

theorem knowsWorkerOf_mono (h : ∀ worker, one worker → two worker)
    (hw : (c.withDirectory one).knowsWorkerOf p) : (c.withDirectory two).knowsWorkerOf p := by
  obtain ⟨worker, hmem, hone⟩ := knowsWorkerOf_withDirectory_iff.mp hw
  exact knowsWorkerOf_withDirectory_iff.mpr ⟨worker, hmem, h worker hone⟩

/-- Two directories that both know a worker of a project, or both know none, are the same to the compiler
but for warnings. -/
theorem mirrors_withDirectory
    (h : (c.withDirectory two).knowsWorkerOf p = (c.withDirectory one).knowsWorkerOf p) :
    (c.withDirectory one).Mirrors (c.withDirectory two)
      (.unchanged fun event => !event.isWorkerWarning) p where
  knowsWorkerOf := h
  openingEvents := by
    have hopening : ∀ directory, ((c.withDirectory directory).openingEvents p).filter
        (fun event => !event.isWorkerWarning) = [.assembling p.name] := by
      intro directory
      unfold openingEvents
      split <;> rfl
    exact (hopening two).trans (hopening one).symm
  planWith _ parents := by
    show c.planWith p parents = (c.planWith p parents).map id
    cases c.planWith p parents <;> rfl
  productEvents _ := rfl

/-- Registries compile in the same way with directories that know a worker of the same projects. -/
theorem compileAll_withDirectory
    (h : ∀ n p, r.config? n = some p →
      (c.withDirectory two).knowsWorkerOf p = (c.withDirectory one).knowsWorkerOf p) :
    ((c.withDirectory two).compileAll r).result = ((c.withDirectory one).compileAll r).result ∧
      ((c.withDirectory two).compileAll r).registry = ((c.withDirectory one).compileAll r).registry ∧
      (((c.withDirectory two).compileAll r).events.filter fun event => !event.isWorkerWarning) =
        (((c.withDirectory one).compileAll r).events.filter fun event => !event.isWorkerWarning) := by
  have hsame := Mirrors.compileAll fun n p hp => mirrors_withDirectory (h n p hp)
  rw [Translation.registry_unchanged] at hsame
  refine ⟨hsame.result.trans ?_, hsame.registry.trans (Translation.registry_unchanged _ _), hsame.events⟩
  cases ((c.withDirectory one).compileAll r).result <;> rfl

/-- If all projects compile, then a worker of each of them is known. -/
theorem Settled.knowsWorkerOf (h : c.Settled r) (hs : r.stack = [])
    (hm : (c.compileAll r).result = .ok master) {n : String} (hp : r.config? n = some p) :
    c.knowsWorkerOf p := by
  have hmem := (Registry.config?_eq_some_iff_mem h.consistent.keys_nodup).mp hp
  exact ((h.compileAll_eq_ok_iff hs).mp ⟨master, hm⟩ p hmem.1).knowsWorker

/-- **A directory of workers only gates.**  The projects of a list are compiled with two directories.  If
both compilations succeed, they come to the same.  If the second directory knows all workers that the first
one knows, and the first compilation succeeds, then so does the second.  And if the directories know a
worker of the same projects, then the results, failures included, and the registries are the same, and so
is what is reported but for warnings of unknown workers. -/
theorem compileAll_gated_by_directory (c : Compiler) (configs : List ProjectConfig)
    (h : (configs.map ProjectConfig.name).Nodup) :
    ∃ r, Registry.ofConfigs configs = .ok r ∧
      ∀ one two : WorkerDirectory,
        let o := (c.withDirectory one).compileAll r
        let o' := (c.withDirectory two).compileAll r
        (∀ m m', o.result = .ok m → o'.result = .ok m' → m = m') ∧
        ((∀ worker, one worker → two worker) → ∀ m, o.result = .ok m → o'.result = .ok m) ∧
        ((∀ p ∈ configs, (∃ worker ∈ p.workers, one worker) ↔ ∃ worker ∈ p.workers, two worker) →
          o'.result = o.result ∧ o'.registry = o.registry ∧
          (o'.events.filter fun event => !event.isWorkerWarning) =
            o.events.filter fun event => !event.isWorkerWarning) := by
  refine ⟨Registry.fresh configs, Registry.ofConfigs_of_nodup h, fun one two => ?_⟩
  intro o o'
  have hset : ∀ directory, (c.withDirectory directory).Settled (.fresh configs) :=
    fun _ => settled_fresh h
  -- a run that succeeds knows a worker of every project, so two such runs agree on who knows one
  have hknows : ∀ directory m, ((c.withDirectory directory).compileAll (.fresh configs)).result = .ok m →
      ∀ n p, (Registry.fresh configs).config? n = some p → (c.withDirectory directory).knowsWorkerOf p :=
    fun directory m hm n p hp => (hset directory).knowsWorkerOf rfl hm hp
  refine ⟨fun m m' hm hm' => ?_, fun hmono m hm => ?_, fun hsame => ?_⟩
  · obtain ⟨hresult, -⟩ := compileAll_withDirectory fun n p hp =>
      (hknows two m' hm' n p hp).trans (hknows one m hm n p hp).symm
    exact Except.ok.inj (hm.symm.trans (hresult.symm.trans hm'))
  · obtain ⟨hresult, -⟩ := compileAll_withDirectory fun n p hp =>
      (knowsWorkerOf_mono hmono (hknows one m hm n p hp)).trans (hknows one m hm n p hp).symm
    exact hresult.trans hm
  · refine compileAll_withDirectory fun n p hp => Bool.eq_iff_iff.mpr ?_
    have hnd : (Registry.fresh configs).keys.Nodup := by rwa [Registry.keys_fresh]
    have hmem := (Registry.config?_eq_some_iff_mem hnd).mp hp
    rw [Registry.configs_fresh] at hmem
    rw [knowsWorkerOf_withDirectory_iff, knowsWorkerOf_withDirectory_iff]
    exact (hsame p hmem.1).symm

/-- A parent with two workers and a child with one of them: a directory that knows the shared worker lets
both compile, a larger one comes to the same, and one without the child's worker refuses. -/
theorem compileAll_gated_by_shared_worker :
    let c := ofWorkers (.ofList [])
    let lib := { ProjectConfig.chained "lib" none with workers := ["w", "v"] }
    let app := ProjectConfig.chained "app" (some "lib")
    let one := WorkerDirectory.ofList ["w"]
    let two := WorkerDirectory.ofList ["u", "v", "w"]
    let three := WorkerDirectory.ofList ["v"]
    ([app, lib].map ProjectConfig.name).Nodup ∧ (∀ worker, one worker → two worker) ∧
    ∃ r m, Registry.ofConfigs [app, lib] = .ok r ∧
      ((c.withDirectory one).compileAll r).result = .ok m ∧
      ((c.withDirectory two).compileAll r).result = .ok m ∧
      m.builders.map Builder.worker = ["w", "v", "w"] ∧
      ((c.withDirectory three).compileAll r).result = .error (.invalidWorkerSet ["w"]) := by
  intro c lib app one two three
  have hnd : ([app, lib].map ProjectConfig.name).Nodup := by decide
  have hmono : ∀ worker, one worker → two worker := by
    intro worker hw
    have : worker = "w" := by simpa [one, WorkerDirectory.ofList] using hw
    simp [two, WorkerDirectory.ofList, this]
  obtain ⟨r, hr, hgate⟩ := c.compileAll_gated_by_directory _ hnd
  cases hr.symm.trans (Registry.ofConfigs_of_nodup hnd)
  have hworkers : (((c.withDirectory one).compileAll (.fresh [app, lib])).result.map fun m =>
      m.builders.map Builder.worker) = .ok ["w", "v", "w"] := by decide +kernel
  have hrefused : ((c.withDirectory three).compileAll (.fresh [app, lib])).result =
      .error (.invalidWorkerSet ["w"]) := by decide +kernel
  cases hm : ((c.withDirectory one).compileAll (.fresh [app, lib])).result with
  | error e =>
    rw [hm] at hworkers
    cases hworkers
  | ok m =>
    rw [hm] at hworkers
    exact ⟨hnd, hmono, _, m, hr, hm, (hgate one two).2.1 hmono m hm, Except.ok.inj hworkers, hrefused⟩

end Compiler

end BuildPlan
