import BuildPlan.Pipeline
import BuildPlan.Project

/-!
# Pipelines of projects

A toolchain knows the interpreter that stands in for `python*` commands and how often a checkout is
tried.  From a project configuration it makes the checkout, the pipeline and one builder per worker.
-/

namespace BuildPlan

/-- What the pipelines of all projects share. -/
structure Toolchain where
  /-- The program that commands starting with `python` are run with. -/
  interpreter : String
  retry : RetryPolicy
  deriving DecidableEq, Repr

/-- The root and module of a CVS locator, two nonempty parts with an exclamation mark between them. -/
def splitLocator? (locator : String) : Option (String × String) :=
  match locator.toList.splitOnP (· == '!') with
  | [root, module] =>
    if root.isEmpty || module.isEmpty then none
    else some (String.ofList root, String.ofList module)
  | _ => none

namespace Toolchain

/-- The interpreter of a master that names none, relative to the working copy. -/
def standardInterpreter : String :=
  "../../bin/python"

/-- The toolchain with the given interpreter, or else the standard one. -/
def ofInterpreter (interpreter : Option String) : Toolchain :=
  { interpreter := interpreter.getD standardInterpreter, retry := .standard }

/-- The words of a command, the first replaced by the interpreter if it starts with `python`; a blank
command has none. -/
def command? (t : Toolchain) (line : String) : Option (List String) :=
  match Text.words line with
  | [] => none
  | first :: rest =>
    some ((if Text.startsWith first "python" then t.interpreter else first) :: rest)

/-- Where the project is checked out from. -/
def source (c : ProjectConfig) : Except CompileError CheckoutSource :=
  match c.vcs with
  | .svn => .ok (.svn c.repository c.credentials)
  | .git => .ok (.git c.repository c.branch)
  | .hg => .ok (.hg c.repository)
  | .bzr => .ok (.bzr c.repository)
  | .cvs =>
    match splitLocator? c.repository with
    | some (root, module) => .ok (.cvs root module c.branch)
    | none => .error (.malformedLocator c.repository)

/-- The checkout step of a project. -/
def checkout (t : Toolchain) (c : ProjectConfig) : Except CompileError Step := do
  let source ← source c
  return {
    kind := .checkout
      { source, mode := c.vcsMode, retry := t.retry, alwaysUseLatest := c.alwaysUseLatest }
    timeout := c.timeouts.global
    haltOnFailure := true }

/-- The build steps: a failure stops the pipeline. -/
def buildSteps (t : Toolchain) (c : ProjectConfig) : List Step :=
  (c.buildSequence.filterMap t.command?).map fun command =>
    { kind := .shell command, timeout := c.timeouts.build, haltOnFailure := true }

/-- The test steps. -/
def testSteps (t : Toolchain) (c : ProjectConfig) : List Step :=
  (c.testSequence.filterMap t.command?).map fun command =>
    { kind := .test command, timeout := c.timeouts.test, haltOnFailure := false }

/-- The lint steps, one for each line that is not blank; no word is replaced. -/
def lintSteps (c : ProjectConfig) : List Step :=
  (((Text.lines (c.lint.getD "")).map Text.words).filter fun words => !words.isEmpty).map
    fun command => { kind := .lint command, timeout := c.timeouts.global, haltOnFailure := false }

/-- The pipeline of a project: checkout, build, test and lint, in that order. -/
def pipeline (t : Toolchain) (c : ProjectConfig) : Except CompileError Pipeline := do
  let checkout ← t.checkout c
  return ⟨checkout :: t.buildSteps c ++ t.testSteps c ++ lintSteps c⟩

/-- The builder that runs a project's pipeline on one worker. -/
def builder (c : ProjectConfig) (pipeline : Pipeline) (worker : String) : Builder :=
  { name := .ofPair c.name worker
    worker
    buildDir := c.name ++ "_" ++ worker
    pipeline }

/-- The builders of a project, one for each of its workers. -/
def builders (t : Toolchain) (c : ProjectConfig) : Except CompileError (List Builder) := do
  let pipeline ← t.pipeline c
  return c.workers.map (builder c pipeline)

end Toolchain

end BuildPlan
