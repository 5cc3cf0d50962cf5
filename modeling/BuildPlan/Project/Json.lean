import BuildPlan.Credentials.Json
import BuildPlan.Project
import BuildPlan.Schedule.Json
import BuildPlan.Vcs.Json

/-!
# JSON form of project configurations

A configuration is only written.
-/

namespace BuildPlan

/-- The JSON form of scheduling policies. -/
def ScheduleOptions.toJson (s : ScheduleOptions) : Json :=
  .obj [("fixed_window", .ofOption FixedWindow.toJson s.fixedWindow),
    ("periodic", .ofOption Period.toJson s.periodic), ("cron", .ofOption CronSpec.toJson s.cron),
    ("dependent", .ofOption .str s.dependent)]

/-- The JSON form of time limits. -/
def Timeouts.toJson (t : Timeouts) : Json :=
  .obj [("global", .int t.global.toNat), ("build", .int t.build.toNat), ("test", .int t.test.toNat)]

/-- The JSON form of a project configuration. -/
def ProjectConfig.toJson (c : ProjectConfig) : Json :=
  .obj [
    ("name", .str c.name),
    ("vcs", c.vcs.toJson),
    ("vcs_mode", c.vcsMode.toJson),
    ("repository", .str c.repository),
    ("branch", .str c.branch),
    ("credentials", .ofOption Credentials.toJson c.credentials),
    ("always_use_latest", .bool c.alwaysUseLatest),
    ("workers", .strings c.workers),
    ("build_sequence", .strings c.buildSequence),
    ("test_sequence", .strings c.testSequence),
    ("dependencies", .strings c.dependencies),
    ("schedule", c.schedule.toJson),
    ("lint", .ofOption .str c.lint),
    ("email_sender", .str c.emailSender),
    ("email_recipients", .strings c.emailRecipients),
    ("mail_host", .str c.mailHost),
    ("timeouts", c.timeouts.toJson)]

end BuildPlan
