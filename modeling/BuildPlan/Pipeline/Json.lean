import BuildPlan.Credentials.Json
import BuildPlan.Notification.Json
import BuildPlan.Pipeline
import BuildPlan.Vcs.Json

/-!
# JSON form of pipelines

The source of a checkout is a record tagged by `vcs`, and the kind of a step one tagged by `type`; all
else are plain records.  The parts of a checkout step are read from among the parts of a tagged record.
-/

namespace BuildPlan

namespace CheckoutSource

/-- The JSON form of a source. -/
def toJson : CheckoutSource → Json
  | .svn url auth =>
    .obj [("vcs", .str "svn"), ("url", .str url), ("auth", .ofOption Credentials.toJson auth)]
  | .git url branch => .obj [("vcs", .str "git"), ("url", .str url), ("branch", .str branch)]
  | .hg url => .obj [("vcs", .str "hg"), ("url", .str url)]
  | .bzr url => .obj [("vcs", .str "bzr"), ("url", .str url)]
  | .cvs root module branch =>
    .obj [("vcs", .str "cvs"), ("root", .str root), ("module", .str module), ("branch", .str branch)]

/-- Reads the fields of a source of the given kind. -/
def ofFields? (kind : Vcs) (j : Json) : Option CheckoutSource :=
  match kind with
  | .svn => do
    let ms ← j.members? ["url", "auth"]
    let url ← Json.field? ms "url" Json.str?
    let auth ← Json.optionalField? ms "auth" Credentials.ofJson?
    return .svn url auth
  | .git => do
    let ms ← j.members? ["url", "branch"]
    let url ← Json.field? ms "url" Json.str?
    let branch ← Json.field? ms "branch" Json.str?
    return .git url branch
  | .hg => do
    let ms ← j.members? ["url"]
    return .hg (← Json.field? ms "url" Json.str?)
  | .bzr => do
    let ms ← j.members? ["url"]
    return .bzr (← Json.field? ms "url" Json.str?)
  | .cvs => do
    let ms ← j.members? ["root", "module", "branch"]
    let root ← Json.field? ms "root" Json.str?
    let module ← Json.field? ms "module" Json.str?
    let branch ← Json.field? ms "branch" Json.str?
    return .cvs root module branch

/-- Reads a source. -/
def ofJson? (place : Json.Place) (j : Json) : Option CheckoutSource := do
  let (kind, fields) ← Json.tagged? place "vcs" Vcs.names j
  ofFields? kind fields

end CheckoutSource

namespace RetryPolicy

/-- The JSON form of a retry policy. -/
def toJson (r : RetryPolicy) : Json :=
  .obj [("attempts", .int r.attempts.toNat), ("spacing_secs", .int r.spacingSecs.toNat)]

/-- Reads a retry policy. -/
def ofJson? (j : Json) : Option RetryPolicy := do
  let ms ← j.members? ["attempts", "spacing_secs"]
  let attempts ← Json.field? ms "attempts" Json.uint32?
  let spacingSecs ← Json.field? ms "spacing_secs" Json.uint64?
  return { attempts, spacingSecs }

end RetryPolicy

namespace Checkout

/-- The members of the JSON form of a checkout. -/
def members (c : Checkout) : List (String × Json) :=
  [("source", c.source.toJson), ("mode", c.mode.toJson), ("retry", c.retry.toJson),
    ("always_use_latest", .bool c.alwaysUseLatest)]

/-- The JSON form of a checkout. -/
def toJson (c : Checkout) : Json :=
  .obj c.members

/-- Reads a checkout. -/
def ofJson? (place : Json.Place) (j : Json) : Option Checkout := do
  let ms ← j.members? ["source", "mode", "retry", "always_use_latest"]
  let source ← Json.field? ms "source" (CheckoutSource.ofJson? place)
  let mode ← Json.field? ms "mode" (VcsMode.ofJson? place)
  let retry ← Json.field? ms "retry" RetryPolicy.ofJson?
  let alwaysUseLatest ← Json.field? ms "always_use_latest" Json.bool?
  return { source, mode, retry, alwaysUseLatest }

end Checkout

namespace StepKind

/-- The kinds of steps. -/
inductive Tag where
  | checkout
  | shell
  | test
  | lint
  deriving DecidableEq, Repr

/-- The kinds in order, with their names. -/
def Tag.names : List (String × Tag) :=
  [("checkout", .checkout), ("shell", .shell), ("test", .test), ("lint", .lint)]

/-- The JSON form of the kind of a step. -/
def toJson : StepKind → Json
  | .checkout c => .obj (("type", .str "checkout") :: c.members)
  | .shell command => .obj [("type", .str "shell"), ("command", .strings command)]
  | .test command => .obj [("type", .str "test"), ("command", .strings command)]
  | .lint command => .obj [("type", .str "lint"), ("command", .strings command)]

/-- Reads the command of a step. -/
def commandOf? (j : Json) : Option (List String) := do
  let ms ← j.members? ["command"]
  Json.field? ms "command" Json.strings?

/-- Reads the kind of a step. -/
def ofJson? (j : Json) : Option StepKind := do
  let (tag, fields) ← Json.tagged? .direct "type" Tag.names j
  match tag with
  | .checkout => return .checkout (← Checkout.ofJson? .buffered fields)
  | .shell => return .shell (← commandOf? fields)
  | .test => return .test (← commandOf? fields)
  | .lint => return .lint (← commandOf? fields)

end StepKind

namespace Step

/-- The JSON form of a step. -/
def toJson (s : Step) : Json :=
  .obj [("kind", s.kind.toJson), ("timeout", .int s.timeout.toNat),
    ("halt_on_failure", .bool s.haltOnFailure)]

/-- Reads a step. -/
def ofJson? (j : Json) : Option Step := do
  let ms ← j.members? ["kind", "timeout", "halt_on_failure"]
  let kind ← Json.field? ms "kind" StepKind.ofJson?
  let timeout ← Json.field? ms "timeout" Json.uint64?
  let haltOnFailure ← Json.field? ms "halt_on_failure" Json.bool?
  return { kind, timeout, haltOnFailure }

end Step

namespace Pipeline

/-- The JSON form of a pipeline. -/
def toJson (p : Pipeline) : Json :=
  .obj [("steps", .arr (p.steps.map Step.toJson))]

/-- Reads a pipeline. -/
def ofJson? (j : Json) : Option Pipeline := do
  let ms ← j.members? ["steps"]
  let steps ← Json.field? ms "steps" (Json.list? Step.ofJson?)
  return { steps }

end Pipeline

namespace Builder

/-- The JSON form of a builder. -/
def toJson (b : Builder) : Json :=
  .obj [("name", b.name.toJson), ("worker", .str b.worker), ("build_dir", .str b.buildDir),
    ("pipeline", b.pipeline.toJson)]

/-- Reads a builder. -/
def ofJson? (j : Json) : Option Builder := do
  let ms ← j.members? ["name", "worker", "build_dir", "pipeline"]
  let name ← Json.field? ms "name" BuilderName.ofJson?
  let worker ← Json.field? ms "worker" Json.str?
  let buildDir ← Json.field? ms "build_dir" Json.str?
  let pipeline ← Json.field? ms "pipeline" Pipeline.ofJson?
  return { name, worker, buildDir, pipeline }

end Builder

end BuildPlan
