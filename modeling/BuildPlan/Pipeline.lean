import BuildPlan.BuilderName
import BuildPlan.Credentials
import BuildPlan.Vcs

/-!
# Pipelines

A pipeline is a list of steps: a checkout, and shell, test and lint commands.  A builder is one worker
that runs one pipeline.
-/

namespace BuildPlan

/-- Where a checkout comes from. -/
inductive CheckoutSource where
  | svn (url : String) (auth : Option Credentials)
  | git (url branch : String)
  | hg (url : String)
  | bzr (url : String)
  | cvs (root module branch : String)
  deriving DecidableEq, Repr

/-- How often a checkout is tried, and the seconds between two attempts. -/
structure RetryPolicy where
  attempts : UInt32
  spacingSecs : UInt64
  deriving DecidableEq, Repr

/-- Ten attempts, three seconds apart. -/
def RetryPolicy.standard : RetryPolicy :=
  ⟨10, 3⟩

/-- A checkout of a repository. -/
structure Checkout where
  source : CheckoutSource
  mode : VcsMode
  retry : RetryPolicy
  /-- The newest revision is checked out, and not the one that started the build. -/
  alwaysUseLatest : Bool
  deriving DecidableEq, Repr

/-- What a step does. -/
inductive StepKind where
  | checkout (c : Checkout)
  | shell (command : List String)
  | test (command : List String)
  | lint (command : List String)
  deriving DecidableEq, Repr

/-- The words of the command that a step runs. -/
def StepKind.command? : StepKind → Option (List String)
  | .checkout _ => none
  | .shell command | .test command | .lint command => some command

/-- The checkout that a step makes. -/
def StepKind.checkout? : StepKind → Option Checkout
  | .checkout c => some c
  | _ => none

/-- A step of a pipeline. -/
structure Step where
  kind : StepKind
  /-- The time limit in seconds. -/
  timeout : UInt64
  /-- A failure stops the steps that follow. -/
  haltOnFailure : Bool
  deriving DecidableEq, Repr

/-- Steps in the order in which they run. -/
structure Pipeline where
  steps : List Step
  deriving DecidableEq, Repr

/-- The first checkout of a pipeline. -/
def Pipeline.checkout? (p : Pipeline) : Option Checkout :=
  p.steps.findSome? fun step => step.kind.checkout?

/-- One worker that runs one pipeline. -/
structure Builder where
  name : BuilderName
  worker : String
  /-- The directory on the worker. -/
  buildDir : String
  pipeline : Pipeline
  deriving DecidableEq, Repr

end BuildPlan
