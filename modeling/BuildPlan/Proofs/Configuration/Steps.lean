import BuildPlan.Proofs.Configuration.Options
import BuildPlan.Proofs.Text.Words
import BuildPlan.Toolchain

/-!
# From the document to the steps

Each line of a build or test option that is not blank becomes one step, whatever blanks and line ends
stand around it, and so does each line of the last child with lint commands.  One checkout stands in
front, and steps that stop the pipeline stand before those that do not.
-/

namespace BuildPlan

open Kdl.Node (keyed)

/-! ### Lines -/

namespace Kdl.Node

variable {nodes : List Node}

/-- The lines of all texts of some nodes that are not blank. -/
def commandLines (nodes : List Node) : List String :=
  (nodes.flatMap fun node => node.texts.flatMap Text.lines).filter fun line => !Text.isBlank line

theorem isBlank_of_mem_commandLines {line : String} (h : line ∈ commandLines nodes) :
    Text.isBlank line = false := by
  simpa using (List.mem_filter.mp h).2

theorem lines_eq (node : Node) : node.lines = (commandLines [node]).map Text.trim := by
  unfold lines commandLines
  rw [List.flatMap_singleton, List.filter_flatMap, List.map_flatMap]
  exact List.flatMap_congr fun text _ => Text.entries_eq text

theorem flatMap_lines (nodes : List Node) :
    nodes.flatMap lines = (commandLines nodes).map Text.trim := by
  unfold commandLines
  rw [List.filter_flatMap, List.map_flatMap]
  refine List.flatMap_congr fun node _ => ?_
  rw [lines_eq, commandLines, List.flatMap_singleton]

end Kdl.Node

/-- The lint commands of a child are its lines. -/
theorem lines_lintOf (node : Kdl.Node) : Text.lines (ProjectDraft.lintOf node) = node.lines := by
  refine Text.lines_intercalate_entries fun line hline => ?_
  obtain ⟨text, -, hentry⟩ := List.mem_flatMap.mp hline
  exact ⟨text, hentry⟩

namespace Toolchain

/-! ### Commands -/

/-- The words of a command, with the interpreter for a first word that starts with `python`. -/
def substitute (t : Toolchain) : List String → List String
  | [] => []
  | first :: rest => (if Text.startsWith first "python" then t.interpreter else first) :: rest

theorem command?_eq_some (t : Toolchain) {line : String} (h : Text.isBlank line = false) :
    t.command? line = some (t.substitute (Text.words line)) := by
  have hne : Text.words line ≠ [] := by
    rw [Ne, Text.words_eq_nil_iff, h]
    exact Bool.false_ne_true
  obtain ⟨first, rest, hwords⟩ := List.exists_cons_of_ne_nil hne
  simp only [command?, hwords, substitute]

/-- Blanks around a line have no part in its command. -/
theorem command?_trim (t : Toolchain) (line : String) : t.command? (Text.trim line) = t.command? line := by
  unfold command?
  rw [Text.words_trim]

/-- The commands of an option are those of its lines that are not blank. -/
theorem filterMap_command? (t : Toolchain) (nodes : List Kdl.Node) :
    (nodes.flatMap Kdl.Node.lines).filterMap t.command? =
      (Kdl.Node.commandLines nodes).map fun line => t.substitute (Text.words line) := by
  rw [Kdl.Node.flatMap_lines, List.filterMap_map, ← List.filterMap_eq_map]
  refine List.filterMap_congr fun line hline => ?_
  rw [Function.comp_apply, command?_trim,
    t.command?_eq_some (Kdl.Node.isBlank_of_mem_commandLines hline)]
  rfl

end Toolchain

/-! ### Steps -/

/-- What the pipeline of a project that has been read is like. -/
structure Pipeline.WellOrdered (pipeline : Pipeline) : Prop where
  /-- One checkout stands in front, and there is no other one. -/
  checkout : ∃ first rest, pipeline.steps = first :: rest ∧ first.kind.checkout?.isSome ∧
    ∀ step ∈ rest, step.kind.checkout? = none
  test : ∃ step ∈ pipeline.steps, ∃ command, step.kind = .test command
  /-- No step that stops the pipeline stands behind one that does not. -/
  halting : pipeline.steps.Pairwise fun step later => later.haltOnFailure → step.haltOnFailure

namespace Toolchain

variable {t : Toolchain} {p : ProjectConfig} {pipeline : Pipeline} {step : Step} {node : Kdl.Node}
  {master : MasterSettings} {credentials : CredentialStore}

theorem pipeline_eq_ok_iff :
    t.pipeline p = .ok pipeline ↔
      ∃ checkout, t.checkout p = .ok checkout ∧
        pipeline.steps = checkout :: (t.buildSteps p ++ t.testSteps p ++ lintSteps p) := by
  unfold Toolchain.pipeline
  cases t.checkout p with
  | error e => simp [bind, Except.bind]
  | ok checkout =>
    obtain ⟨steps⟩ := pipeline
    simp [bind, Except.bind, pure, Except.pure, eq_comm]

/-- A failure in the checkout or in a build step stops the pipeline. -/
theorem checkoutStep_of_checkout (h : t.checkout p = .ok step) :
    step.kind.checkout?.isSome ∧ step.haltOnFailure = true := by
  obtain ⟨source, -, hstep⟩ := exists_of_bind_eq_ok h
  cases hstep
  exact ⟨rfl, rfl⟩

theorem buildStep_of_mem (h : step ∈ t.buildSteps p) :
    step.kind.checkout? = none ∧ step.haltOnFailure = true := by
  obtain ⟨command, -, rfl⟩ := List.mem_map.mp h
  exact ⟨rfl, rfl⟩

/-- A failure in a test or lint step stops nothing. -/
theorem laterStep_of_mem (h : step ∈ t.testSteps p ++ lintSteps p) :
    step.kind.checkout? = none ∧ step.haltOnFailure = false := by
  rcases List.mem_append.mp h with h | h
  · obtain ⟨command, -, rfl⟩ := List.mem_map.mp h
    exact ⟨rfl, rfl⟩
  · obtain ⟨command, -, rfl⟩ := List.mem_map.mp h
    exact ⟨rfl, rfl⟩

/-- The pipeline of a project with a test command is in order. -/
theorem wellOrdered_of_pipeline (h : t.pipeline p = .ok pipeline) (htest : t.testSteps p ≠ []) :
    pipeline.WellOrdered := by
  obtain ⟨checkout, hcheckout, hsteps⟩ := pipeline_eq_ok_iff.mp h
  rw [List.append_assoc] at hsteps
  constructor
  · refine ⟨checkout, _, hsteps, (checkoutStep_of_checkout hcheckout).1, fun step hstep => ?_⟩
    rcases List.mem_append.mp hstep with hb | hl
    · exact (buildStep_of_mem hb).1
    · exact (laterStep_of_mem hl).1
  · obtain ⟨step, rest, hcons⟩ := List.exists_cons_of_ne_nil htest
    have hmem : step ∈ t.testSteps p := by simp [hcons]
    refine ⟨step, by rw [hsteps]; simp [hmem], ?_⟩
    obtain ⟨command, -, rfl⟩ := List.mem_map.mp hmem
    exact ⟨command, rfl⟩
  · -- the steps up to the last build step stop the pipeline, and the others do not
    rw [hsteps, List.pairwise_cons, List.pairwise_append]
    refine ⟨fun _ _ _ => (checkoutStep_of_checkout hcheckout).2, ?_, ?_, ?_⟩
    · exact List.pairwise_of_forall_mem_list fun step hstep _ _ _ => (buildStep_of_mem hstep).2
    · refine List.pairwise_of_forall_mem_list fun _ _ later hlater hhalt => ?_
      rw [(laterStep_of_mem hlater).2] at hhalt
      cases hhalt
    · exact fun step hstep _ _ _ => (buildStep_of_mem hstep).2

/-! ### What the document asks for -/

/-- The build steps of a project are those of the lines of all its build options. -/
theorem buildSteps_of_readFrom (t : Toolchain) (h : p.ReadFrom node) :
    t.buildSteps p = (Kdl.Node.commandLines (keyed ["build-sequence"] node.children)).map fun line =>
      { kind := .shell (t.substitute (Text.words line)), timeout := p.timeouts.build,
        haltOnFailure := true } := by
  unfold buildSteps
  rw [h.buildSequence, filterMap_command?, List.map_map]
  rfl

/-- The commands of the test options of a project's node. -/
def testCommands (t : Toolchain) (node : Kdl.Node) : List (List String) :=
  let tests := Kdl.Node.commandLines (keyed ["test-sequence"] node.children)
  if tests.isEmpty then [["bin/test"]] else tests.map fun line => t.substitute (Text.words line)

theorem testCommands_ne_nil (t : Toolchain) (node : Kdl.Node) : t.testCommands node ≠ [] := by
  by_cases h : Kdl.Node.commandLines (keyed ["test-sequence"] node.children) = []
  · simp [testCommands, h]
  · simp [testCommands, h]

theorem testSteps_of_readFrom (t : Toolchain) (h : p.ReadFrom node) :
    t.testSteps p = (t.testCommands node).map fun command =>
      { kind := .test command, timeout := p.timeouts.test, haltOnFailure := false } := by
  have hcommands : p.testSequence.filterMap t.command? = t.testCommands node := by
    unfold testCommands
    rw [h.testSequence]
    dsimp only
    rw [Kdl.Node.flatMap_lines, List.isEmpty_map, ← Kdl.Node.flatMap_lines]
    split
    · rw [List.filterMap_cons_some (t.command?_eq_some (by decide))]
      rfl
    · exact t.filterMap_command? _
  rw [testSteps, hcommands]

/-- The lint steps of a project are those of the lines of its last child with lint commands. -/
theorem lintSteps_of_readFrom (h : p.ReadFrom node) :
    lintSteps p =
      (Kdl.Node.commandLines (keyed ["lint", "pyflakes"] node.children).getLast?.toList).map fun line =>
        { kind := .lint (Text.words line), timeout := p.timeouts.global, haltOnFailure := false } := by
  have hcommands : (Text.lines (p.lint.getD "")).map Text.words =
      (Kdl.Node.commandLines (keyed ["lint", "pyflakes"] node.children).getLast?.toList).map
        Text.words := by
    rw [h.lint]
    cases (keyed ["lint", "pyflakes"] node.children).getLast? with
    | none => rfl
    | some child =>
      show (Text.lines (ProjectDraft.lintOf child)).map Text.words = _
      rw [lines_lintOf, Kdl.Node.lines_eq, List.map_map, Option.toList_some]
      simp only [Function.comp_def, Text.words_trim]
  have hkept : ∀ command ∈ (Kdl.Node.commandLines
      (keyed ["lint", "pyflakes"] node.children).getLast?.toList).map Text.words,
        (!command.isEmpty) = true := by
    intro command hcommand
    obtain ⟨line, hline, rfl⟩ := List.mem_map.mp hcommand
    have hblank := Kdl.Node.isBlank_of_mem_commandLines hline
    simp [Text.words_eq_nil_iff, hblank]
  rw [lintSteps, hcommands, List.filter_eq_self.mpr hkept, List.map_map]
  rfl

/-- **From the document to the steps.**  The pipeline of a project that has been read is a checkout, the
build steps, the test steps and the lint steps that its node asks for, in this order. -/
theorem steps_of_ofNode (h : ProjectConfig.ofNode master credentials node = .ok p)
    (hp : t.pipeline p = .ok pipeline) :
    (∃ checkout, t.checkout p = .ok checkout ∧ pipeline.steps = checkout ::
      ((Kdl.Node.commandLines (keyed ["build-sequence"] node.children)).map (fun line =>
          { kind := .shell (t.substitute (Text.words line)), timeout := p.timeouts.build,
            haltOnFailure := true }) ++
        (t.testCommands node).map (fun command =>
          { kind := .test command, timeout := p.timeouts.test, haltOnFailure := false }) ++
        (Kdl.Node.commandLines (keyed ["lint", "pyflakes"] node.children).getLast?.toList).map
          fun line =>
            { kind := .lint (Text.words line), timeout := p.timeouts.global,
              haltOnFailure := false })) ∧
      pipeline.WellOrdered := by
  have hread := ProjectConfig.readFrom_of_ofNode h
  constructor
  · obtain ⟨checkout, hcheckout, hsteps⟩ := pipeline_eq_ok_iff.mp hp
    refine ⟨checkout, hcheckout, ?_⟩
    rw [hsteps, t.buildSteps_of_readFrom hread, t.testSteps_of_readFrom hread,
      lintSteps_of_readFrom hread]
  · apply wellOrdered_of_pipeline hp
    rw [t.testSteps_of_readFrom hread, Ne, List.map_eq_nil_iff]
    exact t.testCommands_ne_nil node

/-- Two build options under both spellings of the key, with blank lines, a line end of two characters and
a wide blank; no test command that is not blank; and two children with lint commands. -/
theorem steps_of_repeated_options :
    let option (name : String) (texts : List String) : Kdl.Node :=
      ⟨name, texts.map fun text => ⟨none, .text text⟩, []⟩
    let node : Kdl.Node := ⟨"project", [⟨none, .text "app"⟩], [
      option "repository" ["r"],
      option "build_sequence" ["python3 setup.py\r\n\n\u2003make  all ", "make doc"],
      option "lint" ["never"],
      option "test-sequence" [" "],
      option "build-sequence" ["pip install ."],
      option "pyflakes" ["\n python -m lint\r\n  \n", "flake8 src"]]⟩
    let t := Toolchain.ofInterpreter none
    let commands := [none, some ["../../bin/python", "setup.py"], some ["make", "all"],
      some ["make", "doc"], some ["pip", "install", "."], some ["bin/test"],
      some ["python", "-m", "lint"], some ["flake8", "src"]]
    ∃ p pipeline, ProjectConfig.ofNode {} (fun _ => none) node = .ok p ∧
      t.pipeline p = .ok pipeline ∧ pipeline.WellOrdered ∧
      pipeline.steps.map (fun step => step.kind.command?) = commands := by
  intro option node t commands
  have hrun : ((ProjectConfig.ofNode {} (fun _ => none) node).toOption.bind fun p =>
      (t.pipeline p).toOption.map fun pipeline =>
        pipeline.steps.map fun step => step.kind.command?) = some commands := by decide +kernel
  obtain ⟨p, hp, hrun⟩ := Option.bind_eq_some_iff.mp hrun
  obtain ⟨pipeline, hpipeline, hcommands⟩ := Option.map_eq_some_iff.mp hrun
  have hread := eq_ok_of_toOption hp
  have hmade := eq_ok_of_toOption hpipeline
  exact ⟨p, pipeline, hread, hmade, (steps_of_ofNode hread hmade).2, hcommands⟩

end Toolchain

end BuildPlan
