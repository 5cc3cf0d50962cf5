import BuildPlan.Proofs.Compiler.Batch
import BuildPlan.Proofs.Configuration.Acceptance
import BuildPlan.Proofs.Configuration.Steps
import BuildPlan.Proofs.Plan.Installation

/-!
# The programs of commands

A line that is not blank has a first word that is not blank either, so its command names a program, unless
the interpreter stands in for that word and is blank itself.  A master may name any text as interpreter, so
that is the one case in which it goes wrong (`Configuration.commands_name_programs`).
-/

namespace BuildPlan

/-- The first word is there and is not blank. -/
def NamesProgram (command : List String) : Prop :=
  ∃ program rest, command = program :: rest ∧ Text.isBlank program = false

/-- The first word of the line begins with `python`. -/
def CallsPython (line : String) : Prop :=
  ∃ program rest, Text.words line = program :: rest ∧ Text.startsWith program "python"

/-- The words of the command that the step runs. -/
def Step.command? (step : Step) : Option (List String) :=
  step.kind.command?

/-- The commands of all steps that run one, in order. -/
def Pipeline.commands (pipeline : Pipeline) : List (List String) :=
  pipeline.steps.filterMap Step.command?

variable {line program : String} {rest command : List String}

instance (line : String) : Decidable (CallsPython line) :=
  match h : Text.words line with
  | [] => isFalse fun ⟨_, _, hwords, _⟩ => by cases h.symm.trans hwords
  | program :: rest =>
    decidable_of_iff (Text.startsWith program "python")
      ⟨fun hp => ⟨program, rest, h, hp⟩, fun ⟨_, _, hwords, hp⟩ => by
        cases h.symm.trans hwords
        exact hp⟩

theorem namesProgram_cons_iff : NamesProgram (program :: rest) ↔ Text.isBlank program = false := by
  simp [NamesProgram]

instance (command : List String) : Decidable (NamesProgram command) :=
  match command with
  | [] => isFalse nofun
  | program :: _ => decidable_of_iff (Text.isBlank program = false) namesProgram_cons_iff.symm

/-- A word is not blank. -/
theorem namesProgram_of_words (h : Text.words line = program :: rest) : NamesProgram (program :: rest) := by
  have hmem : program ∈ Text.words line := by simp [h]
  obtain ⟨hne, hchars⟩ := Text.of_mem_words hmem
  obtain ⟨c, hc⟩ := List.exists_mem_of_ne_nil program.toList (by simpa using hne)
  rw [namesProgram_cons_iff, Bool.eq_false_iff, Ne, Text.isBlank_iff]
  intro hblank
  exact absurd (hblank c hc) (by simp [hchars c hc])

namespace Toolchain

variable {t : Toolchain} {p : ProjectConfig} {pipeline : Pipeline}

/-! ### Pipelines -/

/-- The interpreter is the first word of the commands of lines that begin with `python`. -/
theorem command?_of_callsPython (t : Toolchain) (h : CallsPython line) :
    ∃ rest, t.command? line = some (t.interpreter :: rest) := by
  obtain ⟨program, rest, hwords, hpython⟩ := h
  refine ⟨rest, ?_⟩
  simp only [command?, hwords, if_pos hpython]

/-- The other lines keep their first word. -/
theorem namesProgram_of_command? (h : t.command? line = some command) (hpython : ¬ CallsPython line) :
    NamesProgram command := by
  unfold command? at h
  split at h
  · cases h
  · next program rest hwords =>
    have hkept : ¬ Text.startsWith program "python" := fun hp => hpython ⟨program, rest, hwords, hp⟩
    rw [if_neg hkept] at h
    cases h
    exact namesProgram_of_words hwords

/-- The commands of the lint lines. -/
def lintCommands (p : ProjectConfig) : List (List String) :=
  ((Text.lines (p.lint.getD "")).map Text.words).filter fun words => !words.isEmpty

theorem namesProgram_of_mem_lintCommands (h : command ∈ lintCommands p) : NamesProgram command := by
  obtain ⟨hmem, hne⟩ := List.mem_filter.mp h
  obtain ⟨line, -, rfl⟩ := List.mem_map.mp hmem
  obtain ⟨program, rest, hwords⟩ := List.exists_cons_of_ne_nil (l := Text.words line) (by simpa using hne)
  rw [hwords]
  exact namesProgram_of_words hwords

/-- The commands of steps that have been made for commands. -/
theorem filterMap_command?_map {make : List String → Step} {commands : List (List String)}
    (h : ∀ command, (make command).command? = some command) :
    (commands.map make).filterMap Step.command? = commands := by
  rw [List.filterMap_map]
  simp [h]

/-- The commands of a pipeline are those of the build and test lines, and then those of the lint lines. -/
theorem commands_of_pipeline (h : t.pipeline p = .ok pipeline) :
    pipeline.commands = (p.buildSequence ++ p.testSequence).filterMap t.command? ++ lintCommands p := by
  obtain ⟨checkout, hcheckout, hsteps⟩ := pipeline_eq_ok_iff.mp h
  have hnone : checkout.command? = none := by
    obtain ⟨source, -, hstep⟩ := exists_of_bind_eq_ok hcheckout
    cases hstep
    rfl
  have hbuild : (t.buildSteps p).filterMap Step.command? = p.buildSequence.filterMap t.command? :=
    filterMap_command?_map fun _ => rfl
  have htest : (t.testSteps p).filterMap Step.command? = p.testSequence.filterMap t.command? :=
    filterMap_command?_map fun _ => rfl
  have hlint : (lintSteps p).filterMap Step.command? = lintCommands p :=
    filterMap_command?_map fun _ => rfl
  rw [Pipeline.commands, hsteps, List.filterMap_cons_none hnone, List.filterMap_append,
    List.filterMap_append, hbuild, htest, hlint, List.filterMap_append]

/-- A command of a pipeline names a program, or a line needs the interpreter and the command has it in
front. -/
theorem program_of_mem_commands (h : t.pipeline p = .ok pipeline) (hc : command ∈ pipeline.commands) :
    NamesProgram command ∨ (∃ line ∈ p.buildSequence ++ p.testSequence, CallsPython line) ∧
      ∃ rest, command = t.interpreter :: rest := by
  rw [commands_of_pipeline h, List.mem_append, List.mem_filterMap] at hc
  rcases hc with ⟨line, hline, hcommand⟩ | hlint
  · -- a line that calls Python begins with the interpreter, any other with its own first word
    by_cases hpython : CallsPython line
    · obtain ⟨rest, hrest⟩ := t.command?_of_callsPython hpython
      cases hcommand.symm.trans hrest
      exact Or.inr ⟨⟨line, hline, hpython⟩, rest, rfl⟩
    · exact Or.inl (namesProgram_of_command? hcommand hpython)
  · exact Or.inl (namesProgram_of_mem_lintCommands hlint)

/-- All commands of a pipeline name a program, unless a line needs the interpreter and that is blank. -/
theorem namesProgram_iff (h : t.pipeline p = .ok pipeline) :
    (∀ command ∈ pipeline.commands, NamesProgram command) ↔
      Text.isBlank t.interpreter = false ∨
        ∀ line ∈ p.buildSequence ++ p.testSequence, ¬ CallsPython line := by
  constructor
  · intro hall
    refine or_iff_not_imp_left.mpr fun hblank line hline hpython => hblank ?_
    obtain ⟨rest, hrest⟩ := t.command?_of_callsPython hpython
    -- a blank interpreter and a line that calls Python make a command without a program
    have hmem : t.interpreter :: rest ∈ pipeline.commands := by
      rw [commands_of_pipeline h]
      exact List.mem_append_left _ (List.mem_filterMap.mpr ⟨line, hline, hrest⟩)
    exact namesProgram_cons_iff.mp (hall _ hmem)
  · intro hor command hc
    rcases program_of_mem_commands h hc with hnames | ⟨⟨line, hline, hpython⟩, rest, rfl⟩
    · exact hnames
    · exact namesProgram_cons_iff.mpr (hor.resolve_right fun hlines => hlines line hline hpython)

end Toolchain

/-! ### Builders of a master -/

namespace Compiler

variable {compiler : Compiler} {r : Registry} {master : MasterPlan} {projects : List ProjectConfig}
  {plans : List ProjectPlan}

/-- Each builder runs the pipeline of a project, and the pipeline of each project is run by a builder. -/
structure BuildersOf (compiler : Compiler) (projects : List ProjectConfig) (builders : List Builder) :
    Prop where
  of_project : ∀ p ∈ projects, ∃ b ∈ builders, compiler.toolchain.pipeline p = .ok b.pipeline
  of_builder : ∀ b ∈ builders, ∃ p ∈ projects, compiler.toolchain.pipeline p = .ok b.pipeline

theorem buildersOf_of_plans (h : List.Forall₂ compiler.Plans projects plans) :
    compiler.BuildersOf projects (plans.flatMap ProjectPlan.builders) := by
  induction h with
  | nil => exact ⟨by simp, by simp⟩
  | @cons p plan projects plans hp _ ih =>
    obtain ⟨hw, parents, hplan⟩ := hp
    obtain ⟨pipeline, hpipeline, rfl⟩ := exists_pipeline_of_planWith hplan
    -- a project with a plan has a worker, so its pipeline is that of a builder
    obtain ⟨worker, workers, hworkers⟩ := List.exists_cons_of_ne_nil (workers_ne_nil hw)
    rw [List.flatMap_cons]
    constructor
    · intro q hq
      rcases List.mem_cons.mp hq with rfl | hq
      · exact ⟨Toolchain.builder q pipeline worker, by simp [hworkers], hpipeline⟩
      · obtain ⟨b, hb, hrun⟩ := ih.of_project q hq
        exact ⟨b, List.mem_append_right _ hb, hrun⟩
    · intro b hb
      rcases List.mem_append.mp hb with hb | hb
      · obtain ⟨worker, -, rfl⟩ := List.mem_map.mp hb
        exact ⟨p, by simp, hpipeline⟩
      · obtain ⟨q, hq, hrun⟩ := ih.of_builder b hb
        exact ⟨q, List.mem_cons_of_mem _ hq, hrun⟩

theorem Settled.buildersOf (h : compiler.Settled r) (hm : (compiler.compileAll r).result = .ok master) :
    compiler.BuildersOf (r.entries.map RegistryEntry.config) master.builders := by
  obtain ⟨order, hperm, -, hplans⟩ := h.exists_projects hm
  obtain ⟨-, rfl⟩ := Compiler.compileAll_eq_ok_iff.mp hm
  have hbuilders := buildersOf_of_plans hplans
  rw [MasterPlan.builders_ofPlans]
  constructor
  · exact fun p hp => hbuilders.of_project p (hperm.mem_iff.mpr hp)
  · intro b hb
    obtain ⟨p, hp, hrun⟩ := hbuilders.of_builder b hb
    exact ⟨p, hperm.mem_iff.mp hp, hrun⟩

end Compiler

namespace Configuration

variable {credentials : CredentialStore} {text : String} {c : Configuration} {master : MasterPlan}

/-- An interpreter that is blank is not the standard one. -/
theorem interpreter_of_isBlank {interpreter : Option String}
    (h : Text.isBlank (Toolchain.ofInterpreter interpreter).interpreter) :
    interpreter = some (Toolchain.ofInterpreter interpreter).interpreter := by
  cases interpreter with
  | none => exact absurd h (by decide)
  | some i => rfl

theorem isBlank_interpreter_iff {interpreter : Option String} :
    Text.isBlank (Toolchain.ofInterpreter interpreter).interpreter = false ↔
      ∀ i, interpreter = some i → Text.isBlank i = false := by
  cases interpreter with
  | none => exact iff_of_true (by decide) nofun
  | some i => simp [Toolchain.ofInterpreter]

/-- **Commands name programs.**  Each command of each builder has a first word, and if that is blank then it
is the interpreter that the master names.  All of them name programs just if the master names no blank
interpreter, or no build or test line of a project begins with `python`. -/
theorem commands_name_programs (h : Configuration.parse credentials text = .ok c) (path : String)
    (hm : CommandLine.compileConfiguration path c = .ok master) :
    (∀ b ∈ master.builders, ∀ command ∈ b.pipeline.commands, ∃ program rest,
      command = program :: rest ∧
        (Text.isBlank program → c.master.interpreter = some program)) ∧
    ((∀ b ∈ master.builders, ∀ command ∈ b.pipeline.commands, NamesProgram command) ↔
      (∀ interpreter, c.master.interpreter = some interpreter → Text.isBlank interpreter = false) ∨
        ∀ p ∈ c.projects, ∀ line ∈ p.buildSequence ++ p.testSequence, ¬ CallsPython line) := by
  have hnd := names_nodup_of_parse h
  rw [compileConfiguration_eq_ok_iff hnd] at hm
  have hbuilders := (Compiler.settled_fresh hnd).buildersOf hm
  rw [Registry.configs_fresh] at hbuilders
  rw [← isBlank_interpreter_iff]
  constructor
  · intro b hb command hcommand
    obtain ⟨p, -, hrun⟩ := hbuilders.of_builder b hb
    rcases Toolchain.program_of_mem_commands hrun hcommand with hnames | ⟨-, rest, rfl⟩
    · obtain ⟨program, rest, rfl, hblank⟩ := hnames
      exact ⟨program, rest, rfl, by simp [hblank]⟩
    · exact ⟨_, rest, rfl, interpreter_of_isBlank⟩
  · constructor
    · intro hall
      refine or_iff_not_imp_left.mpr fun hblank p hp => ?_
      obtain ⟨b, hb, hrun⟩ := hbuilders.of_project p hp
      exact ((Toolchain.namesProgram_iff hrun).mp (hall b hb)).resolve_left hblank
    · intro hcases b hb
      obtain ⟨p, hp, hrun⟩ := hbuilders.of_builder b hb
      exact (Toolchain.namesProgram_iff hrun).mpr (hcases.imp_right fun hlines => hlines p hp)

/-- The interpreter is blank, and a lint line begins with `python`, but no build or test line does. -/
theorem commands_name_programs_wide_blank :
    let text :=
      "master \x7b\n workers \"w\"\n interpreter \"\u2003\"\n\x7d\n" ++
        "project \"app\" \x7b\n repository \"r\"\n workers \"w\"\n" ++
        " build-sequence \"\u2003make python\\n\\n jython x\"\n lint \"python -m lint\"\n\x7d\n"
    let commands := [["make", "python"], ["jython", "x"], ["bin/test"], ["python", "-m", "lint"]]
    ∃ c master, Configuration.parse (fun _ => none) text = .ok c ∧
      CommandLine.compileConfiguration "ci.kdl" c = .ok master ∧
      c.master.interpreter = some "\u2003" ∧
      (master.builders.map fun b => b.pipeline.commands) = [commands] ∧
      (∀ p ∈ c.projects, ∀ line ∈ p.buildSequence ++ p.testSequence, ¬ CallsPython line) ∧
      ∀ b ∈ master.builders, ∀ command ∈ b.pipeline.commands, NamesProgram command := by
  intro text commands
  obtain ⟨c, master, hc, hm, htold⟩ := exists_of_run (fun _ => none) text "ci.kdl"
    (fun c master => (c.master.interpreter, master.builders.map fun b => b.pipeline.commands,
      c.projects.map fun p => p.buildSequence ++ p.testSequence))
    (some "\u2003", [commands], [["make python", "jython x", "bin/test"]]) (by decide +kernel)
  simp only [Prod.mk.injEq] at htold
  obtain ⟨hinterpreter, hcommands, hlines⟩ := htold
  have hnone : ∀ p ∈ c.projects, ∀ line ∈ p.buildSequence ++ p.testSequence, ¬ CallsPython line := by
    intro p hp
    have hp' := List.mem_map_of_mem (f := fun p => p.buildSequence ++ p.testSequence) hp
    rw [hlines, List.mem_singleton] at hp'
    rw [hp']
    decide +kernel
  exact ⟨c, master, hc, hm, hinterpreter, hcommands, hnone,
    (commands_name_programs hc "ci.kdl" hm).2.mpr (Or.inr hnone)⟩

/-- A master may name the empty interpreter, and then a build line that begins with `python` has a command
without a program. -/
theorem commands_name_programs_fails :
    let text :=
      "master \x7b\n workers \"w\"\n interpreter \"\"\n\x7d\n" ++
        "project \"app\" \x7b\n repository \"r\"\n workers \"w\"\n" ++
        " build-sequence \"python setup.py\"\n\x7d\n"
    ∃ c master, Configuration.parse (fun _ => none) text = .ok c ∧
      CommandLine.compileConfiguration "ci.kdl" c = .ok master ∧
      ¬ ∀ b ∈ master.builders, ∀ command ∈ b.pipeline.commands, NamesProgram command := by
  intro text
  obtain ⟨c, master, hc, hm, hcommands⟩ := exists_of_run (fun _ => none) text "ci.kdl"
    (fun _ master => master.builders.map fun b => b.pipeline.commands)
    [[["", "setup.py"], ["bin/test"]]] (by decide +kernel)
  refine ⟨c, master, hc, hm, fun hall => ?_⟩
  have hmem : [["", "setup.py"], ["bin/test"]] ∈ master.builders.map fun b => b.pipeline.commands := by
    simp [hcommands]
  obtain ⟨b, hb, hcommands⟩ := List.mem_map.mp hmem
  exact absurd (hall b hb ["", "setup.py"] (by simp [hcommands])) (by decide)

end Configuration

end BuildPlan
