import BuildPlan.Text.Blank

/-!
# Changes

A change touches files, and a filter finds it important when the path of one of them contains one of
the filter's fragments.
-/

namespace BuildPlan

/-- A change that was seen in a repository. -/
structure Change where
  files : List String
  deriving DecidableEq, Repr

/-- Fragments of paths to look for. -/
structure ChangeFilter where
  fragments : List String
  deriving DecidableEq, Repr

namespace ChangeFilter

/-- Whether one of the paths contains one of the fragments. -/
def matchesFiles (f : ChangeFilter) (files : List String) : Bool :=
  files.any fun file => f.fragments.any fun fragment => Text.contains file fragment

/-- Whether the change touches a path that contains one of the fragments. -/
def isImportant (f : ChangeFilter) (change : Change) : Bool :=
  f.matchesFiles change.files

end ChangeFilter

end BuildPlan
