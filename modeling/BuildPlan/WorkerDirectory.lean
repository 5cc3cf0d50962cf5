/-!
# Worker directories

A directory answers whether a worker of a given name is known.
-/

namespace BuildPlan

/-- Answers whether a worker is known. -/
abbrev WorkerDirectory := String → Bool

/-- The directory of the listed workers. -/
def WorkerDirectory.ofList (names : List String) : WorkerDirectory :=
  fun name => names.contains name

end BuildPlan
