import BuildPlan.Json.Shape
import BuildPlan.Schedule
import BuildPlan.Schedule.Cron

/-!
# JSON form of scheduling policies

Windows and periods are their numbers.  A cron field is the name `any`, or an object whose one member
holds its value.
-/

namespace BuildPlan

/-- The JSON form of a window. -/
def FixedWindow.toJson (w : FixedWindow) : Json :=
  .int w.secs.toNat

/-- Reads a window; any unsigned integer of 64 bits is one. -/
def FixedWindow.ofJson? (j : Json) : Option FixedWindow :=
  j.uint64?.map FixedWindow.mk

/-- The JSON form of a period. -/
def Period.toJson (p : Period) : Json :=
  .int p.minutes.toNat

/-- Reads a period; any unsigned integer of 64 bits is one. -/
def Period.ofJson? (j : Json) : Option Period :=
  j.uint64?.map Period.mk

/-- The JSON form of a cron field. -/
def CronField.toJson : CronField → Json
  | .any => .str "any"
  | .value n => .obj [("value", .int n.toNat)]

/-- Reads a cron field. -/
def CronField.ofJson? (place : Json.Place) (j : Json) : Option CronField :=
  match j with
  | .obj [("value", n)] => n.uint32?.map .value
  | _ => Json.name? place [("any", .any)] j

namespace CronSpec

/-- The names of the fields of a schedule, in order. -/
def fieldNames : List String :=
  ["minute", "hour", "day_of_month", "month", "day_of_week"]

/-- The members of the JSON form of a schedule. -/
def members (c : CronSpec) : List (String × Json) :=
  fieldNames.zip (c.fields.map CronField.toJson)

/-- The JSON form of a schedule. -/
def toJson (c : CronSpec) : Json :=
  .obj c.members

/-- Reads a schedule. -/
def ofJson? (place : Json.Place) (j : Json) : Option CronSpec := do
  let ms ← j.members? fieldNames
  let minute ← Json.field? ms "minute" (CronField.ofJson? place)
  let hour ← Json.field? ms "hour" (CronField.ofJson? place)
  let dayOfMonth ← Json.field? ms "day_of_month" (CronField.ofJson? place)
  let month ← Json.field? ms "month" (CronField.ofJson? place)
  let dayOfWeek ← Json.field? ms "day_of_week" (CronField.ofJson? place)
  return { minute, hour, dayOfMonth, month, dayOfWeek }

end CronSpec

end BuildPlan
