import BuildPlan.Configuration.Json
import BuildPlan.Main
import BuildPlan.Project.Json
import BuildPlan.Proofs.Compiler.Acceptance
import BuildPlan.Proofs.Compiler.Batch
import BuildPlan.Proofs.Compiler.Credentials
import BuildPlan.Proofs.Compiler.Directories
import BuildPlan.Proofs.Compiler.Extension
import BuildPlan.Proofs.Compiler.Faults
import BuildPlan.Proofs.Compiler.History
import BuildPlan.Proofs.Compiler.InstallationOrder
import BuildPlan.Proofs.Compiler.Lineage
import BuildPlan.Proofs.Compiler.Logs
import BuildPlan.Proofs.Compiler.Notifiers
import BuildPlan.Proofs.Compiler.OneByOne
import BuildPlan.Proofs.Compiler.Plans
import BuildPlan.Proofs.Compiler.References
import BuildPlan.Proofs.Compiler.Search
import BuildPlan.Proofs.Compiler.Translation
import BuildPlan.Proofs.Configuration.Acceptance
import BuildPlan.Proofs.Configuration.BuilderIdentity
import BuildPlan.Proofs.Configuration.Credentials
import BuildPlan.Proofs.Configuration.CredentialsFile
import BuildPlan.Proofs.Configuration.DeclaredNames
import BuildPlan.Proofs.Configuration.Invariance
import BuildPlan.Proofs.Configuration.Limits
import BuildPlan.Proofs.Configuration.Numbers
import BuildPlan.Proofs.Configuration.Options
import BuildPlan.Proofs.Configuration.Programs
import BuildPlan.Proofs.Configuration.Reordering
import BuildPlan.Proofs.Configuration.SchedulerNames
import BuildPlan.Proofs.Configuration.Stages
import BuildPlan.Proofs.Configuration.Steps
import BuildPlan.Proofs.Json.Forms
import BuildPlan.Proofs.Notification.Addresses
import BuildPlan.Proofs.Plan.Credentials
import BuildPlan.Proofs.Plan.Installation
import BuildPlan.Proofs.Plan.Ownership
import BuildPlan.Proofs.Project.Checkout
import BuildPlan.Proofs.Project.Locator
import BuildPlan.Proofs.Project.Mimicry
import BuildPlan.Proofs.Project.Plain
import BuildPlan.Proofs.Project.Schedulers
import BuildPlan.Proofs.Registry.Extension
import BuildPlan.Proofs.Resolution.DepthFirst
import BuildPlan.Proofs.Resolution.Precedence
import BuildPlan.Proofs.Resolution.Termination
import BuildPlan.Proofs.Resolution.Transcript
import BuildPlan.Proofs.Schedule.Cron
import BuildPlan.Proofs.Text.Separator
