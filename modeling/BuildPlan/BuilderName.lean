/-!
# Builder names

The name of a builder pairs a project with a worker; schedulers and notifiers refer to builders by it.
-/

namespace BuildPlan

/-- The name of a builder. -/
structure BuilderName where
  text : String
  deriving DecidableEq, Repr

namespace BuilderName

/-- The name of the builder that runs a project on a worker. -/
def ofPair (project worker : String) : BuilderName :=
  ⟨project ++ " " ++ worker⟩

/-- Names are ordered by the code points of their texts. -/
def le (a b : BuilderName) : Bool :=
  !decide (b.text < a.text)

end BuilderName

end BuildPlan
