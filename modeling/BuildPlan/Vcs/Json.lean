import BuildPlan.Json.Shape
import BuildPlan.Vcs

/-!
# JSON form of version control systems and modes

Both are bare names.
-/

namespace BuildPlan

/-- The JSON form of a system. -/
def Vcs.toJson (v : Vcs) : Json :=
  .str v.name

/-- Reads a system. -/
def Vcs.ofJson? (j : Json) : Option Vcs :=
  Json.name? .direct Vcs.names j

/-- The JSON form of a mode. -/
def VcsMode.toJson (m : VcsMode) : Json :=
  .str m.name

/-- Reads a mode. -/
def VcsMode.ofJson? (place : Json.Place) (j : Json) : Option VcsMode :=
  Json.name? place VcsMode.names j

end BuildPlan
