import BuildPlan.ConfigError
import BuildPlan.Configuration.Master
import BuildPlan.Project

/-!
# Project nodes

The first argument of a project's node is the name of the project, and its children are the options.
Options are read in order: those that collect words or lines add to what is there, and of the others the
last one counts.  The first option that cannot be read ends the reading.
-/

namespace BuildPlan

/-- An option of a project. -/
inductive ProjectOption where
  | vcs
  | vcsMode
  | repository
  | branch
  | workers
  | buildSequence
  | testSequence
  | dependencies
  | fixedWindow
  | periodic
  | cron
  | dependent
  | lint
  | emailSender
  | emailRecipients
  | mailHost
  | timeout (which : TimeoutOption)
  | alwaysUseLatest
  deriving DecidableEq, Repr

/-- The option with the given key, if it is one. -/
def ProjectOption.ofKey? : String → Option ProjectOption
  | "vcs" => some .vcs
  | "vcs-mode" => some .vcsMode
  | "repository" => some .repository
  | "branch" => some .branch
  | "workers" | "worker" | "slave-names" => some .workers
  | "build-sequence" => some .buildSequence
  | "test-sequence" => some .testSequence
  | "dependencies" => some .dependencies
  | "default-scheduler" => some .fixedWindow
  | "periodic-scheduler" => some .periodic
  | "cron-scheduler" => some .cron
  | "dependent-scheduler" => some .dependent
  | "lint" | "pyflakes" => some .lint
  | "email-notification-sender" => some .emailSender
  | "email-notification-recipients" => some .emailRecipients
  | "mail-host" => some .mailHost
  | "timeout" => some (.timeout .global)
  | "build-timeout" => some (.timeout .build)
  | "test-timeout" => some (.timeout .test)
  | "always-use-latest" => some .alwaysUseLatest
  | _ => none

namespace Kdl.Node

/-- The words of all arguments that are texts. -/
def words (n : Node) : List String :=
  n.texts.flatMap Text.words

/-- The lines of all arguments that are texts, trimmed, without the blank ones. -/
def lines (n : Node) : List String :=
  n.texts.flatMap Text.entries

/-- Whether the first argument says yes. -/
def flag (n : Node) : Bool :=
  match n.arguments.head? with
  | none => false
  | some (.bool b) => b
  | some v => ["yes", "true", "y"].contains (Text.keyword v.scalar)

end Kdl.Node

namespace ProjectDraft

/-- Sets a time limit. -/
def withTimeout (d : ProjectDraft) (secs : Int) : TimeoutOption → ProjectDraft
  | .global => { d with timeout := some secs }
  | .build => { d with buildTimeout := some secs }
  | .test => { d with testTimeout := some secs }

/-- The first argument of an option that needs one. -/
def required (d : ProjectDraft) (node : Kdl.Node) : Except ConfigError String :=
  match node.firstScalar? with
  | some text => .ok text
  | none => .error (.missing (.option node.key d.name))

/-- The first argument of an option, read from its text. -/
def parsed {α : Type} (d : ProjectDraft) (node : Kdl.Node) (parse : String → Except CompileError α) :
    Except ConfigError α := do
  let text ← d.required node
  (parse text).mapError (.project d.name)

/-- The first argument of an option that is a number of seconds. -/
def seconds (d : ProjectDraft) (node : Kdl.Node) : Except ConfigError Int := do
  let text ← d.required node
  match Text.int64? (Text.trim text) with
  | some n => return n
  | none => throw (.invalid (.seconds node.key d.name text))

/-- Reads an option. -/
def readKnown (d : ProjectDraft) (node : Kdl.Node) :
    ProjectOption → Except ConfigError ProjectDraft
  | .vcs => do return { d with vcs := ← d.parsed node Vcs.parse }
  | .vcsMode => do return { d with vcsMode := ← d.parsed node VcsMode.parse }
  | .repository => do return { d with repository := Text.trim (← d.required node) }
  | .branch => do return { d with branch := Text.trim (← d.required node) }
  | .workers => return { d with workers := d.workers ++ node.words }
  | .buildSequence => return { d with buildSequence := d.buildSequence ++ node.lines }
  | .testSequence => return { d with testSequence := d.testSequence ++ node.lines }
  | .dependencies => return { d with dependencies := d.dependencies ++ node.lines }
  | .fixedWindow => do
    let window ← d.parsed node FixedWindow.parse
    return { d with schedule := { d.schedule with fixedWindow := some window } }
  | .periodic => do
    let period ← d.parsed node Period.parse
    return { d with schedule := { d.schedule with periodic := some period } }
  | .cron => do
    let cron ← d.parsed node CronSpec.parse
    return { d with schedule := { d.schedule with cron := some cron } }
  | .dependent => do
    let parent ← d.required node
    return { d with schedule := { d.schedule with dependent := some (Text.trim parent) } }
  | .lint => return { d with lint := some (String.intercalate "\n" node.lines) }
  | .emailSender => do return d.withEmailSender (← d.required node)
  | .emailRecipients => return { d with emailRecipients := d.emailRecipients ++ node.words }
  | .mailHost => do return { d with mailHost := Text.trim (← d.required node) }
  | .timeout which => do return d.withTimeout (← d.seconds node) which
  | .alwaysUseLatest => return { d with alwaysUseLatest := node.flag }

/-- Reads a child of a project's node; an unknown one changes nothing. -/
def readOption (d : ProjectDraft) (node : Kdl.Node) : Except ConfigError ProjectDraft :=
  match ProjectOption.ofKey? node.key with
  | some option => d.readKnown node option
  | none => .ok d

/-- The draft of a project before its options are read. -/
def start (name : String) (master : MasterSettings) : ProjectDraft :=
  match master.mailHost with
  | some host => { name, mailHost := host }
  | none => { name }

end ProjectDraft

namespace ProjectConfig

/-- The name in a project's node, which must not be blank. -/
def nameOf? (node : Kdl.Node) : Option String :=
  node.firstText?.filter fun name => !Text.isBlank name

/-- Reads a project's node.  The credentials are those of its repository. -/
def ofNode (master : MasterSettings) (credentials : CredentialStore) (node : Kdl.Node) :
    Except ConfigError ProjectConfig := do
  match nameOf? node with
  | none => throw (.missing .projectName)
  | some name =>
    let d ← node.children.foldlM ProjectDraft.readOption (.start name master)
    if d.repository.isEmpty then
      throw (.missing (.repository name))
    ProjectDraft.finish { d with credentials := credentials d.repository }
      |>.mapError (.project name)

end ProjectConfig

end BuildPlan
