import BuildPlan.CompileError
import BuildPlan.Text.Blank
import BuildPlan.Text.Integer

/-!
# Cron schedules

Five fields, each a star or an unsigned integer of 32 bits, separated by blanks.  Words after the fifth
are ignored.  `CronSpec.text` writes a schedule in the form that `CronSpec.parse` reads.
-/

namespace BuildPlan

/-- One field of a cron schedule. -/
inductive CronField where
  /-- Every value, written as a star. -/
  | any
  | value (n : UInt32)
  deriving DecidableEq, Repr

namespace CronField

/-- The written form of a field. -/
def text : CronField → String
  | .any => "*"
  | .value n => Nat.repr n.toNat

/-- Reads one word. -/
def parse? (word : String) : Option CronField :=
  if word = "*" then some .any else (Text.uint32? word).map .value

end CronField

/-- A cron schedule. -/
structure CronSpec where
  minute : CronField
  hour : CronField
  dayOfMonth : CronField
  month : CronField
  dayOfWeek : CronField
  deriving DecidableEq, Repr

namespace CronSpec

/-- The fields in order. -/
def fields (c : CronSpec) : List CronField :=
  [c.minute, c.hour, c.dayOfMonth, c.month, c.dayOfWeek]

/-- The schedule with the given five fields. -/
def ofFields? : List CronField → Option CronSpec
  | [minute, hour, dayOfMonth, month, dayOfWeek] => some ⟨minute, hour, dayOfMonth, month, dayOfWeek⟩
  | _ => none

/-- The written form of a schedule. -/
def text (c : CronSpec) : String :=
  String.intercalate " " (c.fields.map CronField.text)

/-- Reads the first five words of a text. -/
def parse (text : String) : Except CompileError CronSpec :=
  match (((Text.words text).take 5).mapM CronField.parse?).bind ofFields? with
  | some cron => .ok cron
  | none => .error (.malformedSchedule .cron text)

end CronSpec

end BuildPlan
