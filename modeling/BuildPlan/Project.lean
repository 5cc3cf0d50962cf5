import BuildPlan.Credentials
import BuildPlan.Schedule
import BuildPlan.Schedule.Cron
import BuildPlan.Vcs

/-!
# Project configurations

A draft collects the options of a project one by one; `ProjectDraft.finish` checks it, fills in what is
missing and gives the project configuration.
-/

namespace BuildPlan

/-- The scheduling policies of a project, each there or not. -/
structure ScheduleOptions where
  fixedWindow : Option FixedWindow := none
  periodic : Option Period := none
  cron : Option CronSpec := none
  /-- The project whose schedulers this one waits for. -/
  dependent : Option String := none
  deriving DecidableEq, Repr

/-- The time limits of steps, in seconds. -/
structure Timeouts where
  global : UInt64
  build : UInt64
  test : UInt64
  deriving DecidableEq, Repr

/-- A project configuration. -/
structure ProjectConfig where
  name : String
  vcs : Vcs
  vcsMode : VcsMode
  repository : String
  branch : String
  credentials : Option Credentials
  alwaysUseLatest : Bool
  workers : List String
  buildSequence : List String
  testSequence : List String
  /-- Fragments of paths whose changes start a build. -/
  dependencies : List String
  schedule : ScheduleOptions
  /-- Lint commands, one to a line. -/
  lint : Option String
  emailSender : String
  emailRecipients : List String
  mailHost : String
  timeouts : Timeouts
  deriving DecidableEq, Repr

namespace ProjectConfig

/-- Somebody is to be told by somebody. -/
def wantsNotifications (c : ProjectConfig) : Bool :=
  !c.emailSender.isEmpty && !c.emailRecipients.isEmpty

end ProjectConfig

/-- The options of a project as far as they have been given. -/
structure ProjectDraft where
  name : String
  vcs : Vcs := .svn
  vcsMode : VcsMode := .update
  repository : String := ""
  branch : String := ""
  credentials : Option Credentials := none
  alwaysUseLatest : Bool := false
  workers : List String := []
  buildSequence : List String := []
  testSequence : List String := []
  dependencies : List String := []
  schedule : ScheduleOptions := {}
  lint : Option String := none
  emailSender : String := ""
  emailRecipients : List String := []
  mailHost : String := "localhost"
  timeout : Option Int := none
  buildTimeout : Option Int := none
  testTimeout : Option Int := none
  deriving DecidableEq, Repr

namespace ProjectDraft

/-- The test command of a project that names none. -/
def standardTest : String :=
  "bin/test"

/-- The time limit of a project that names none, in seconds. -/
def standardTimeout : Int :=
  3600

/-- A sender is kept without the blanks around it. -/
def withEmailSender (d : ProjectDraft) (sender : String) : ProjectDraft :=
  { d with emailSender := Text.trim sender }

/-- A time limit has to be positive. -/
def checkTimeout (option : TimeoutOption) (secs : Int) : Except CompileError UInt64 :=
  if secs < 1 then .error (.invalidConfig (.nonPositive option secs))
  else .ok (UInt64.ofNat secs.toNat)

/-- The time limits: the global one stands in for those that are not given. -/
def timeouts (d : ProjectDraft) : Except CompileError Timeouts := do
  let global ← checkTimeout .global (d.timeout.getD standardTimeout)
  let build ← d.buildTimeout.elim (pure global) (checkTimeout .build)
  let test ← d.testTimeout.elim (pure global) (checkTimeout .test)
  return { global, build, test }

/-- Checks the draft and fills in what is missing. -/
def finish (d : ProjectDraft) : Except CompileError ProjectConfig := do
  if Text.isBlank d.name then
    throw (.invalidConfig .blankName)
  let timeouts ← d.timeouts
  return {
    name := d.name
    vcs := d.vcs
    vcsMode := d.vcsMode
    repository := d.repository
    branch := d.branch
    credentials := d.credentials
    alwaysUseLatest := d.alwaysUseLatest
    workers := d.workers
    buildSequence := d.buildSequence
    testSequence := if d.testSequence.isEmpty then [standardTest] else d.testSequence
    dependencies := d.dependencies
    schedule := d.schedule
    lint := d.lint
    emailSender := d.emailSender
    emailRecipients := d.emailRecipients
    mailHost := d.mailHost
    timeouts }

end ProjectDraft

end BuildPlan
