import BuildPlan.Change
import BuildPlan.Json.Shape

/-!
# JSON form of changes and filters

Both are records of one list.
-/

namespace BuildPlan

/-- The JSON form of a change. -/
def Change.toJson (c : Change) : Json :=
  .obj [("files", .strings c.files)]

/-- Reads a change. -/
def Change.ofJson? (j : Json) : Option Change := do
  let ms ← j.members? ["files"]
  let files ← Json.field? ms "files" Json.strings?
  return { files }

/-- The JSON form of a filter. -/
def ChangeFilter.toJson (f : ChangeFilter) : Json :=
  .obj [("fragments", .strings f.fragments)]

/-- Reads a filter. -/
def ChangeFilter.ofJson? (j : Json) : Option ChangeFilter := do
  let ms ← j.members? ["fragments"]
  let fragments ← Json.field? ms "fragments" Json.strings?
  return { fragments }

end BuildPlan
