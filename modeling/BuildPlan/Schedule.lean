import BuildPlan.CompileError
import BuildPlan.Text.Blank
import BuildPlan.Text.Integer

/-!
# Windows and periods

The time a tree has to be stable before a build, in seconds, and the period of a repeated build, in
minutes.  Both are read from integer texts; a window of 0 stands for the default one.
-/

namespace BuildPlan

/-- How long a tree has to be stable, in seconds. -/
structure FixedWindow where
  secs : UInt64
  deriving DecidableEq, Repr

namespace FixedWindow

/-- The window that 0 stands for. -/
def standard : FixedWindow :=
  ⟨600⟩

/-- The window of a number of seconds; there is none below 0. -/
def ofSecs? (n : Int) : Option FixedWindow :=
  if n = 0 then some standard
  else if n < 0 then none
  else some ⟨UInt64.ofNat n.toNat⟩

/-- Reads a number of seconds. -/
def parse (text : String) : Except CompileError FixedWindow :=
  match (Text.int64? (Text.trim text)).bind ofSecs? with
  | some window => .ok window
  | none => .error (.malformedSchedule .window text)

end FixedWindow

/-- The time between two builds, in minutes. -/
structure Period where
  minutes : UInt64
  deriving DecidableEq, Repr

namespace Period

/-- The period in seconds. -/
def secs (p : Period) : UInt64 :=
  p.minutes * 60

/-- The period of a number of minutes, which has to be positive. -/
def ofMinutes? (n : Int) : Option Period :=
  if n < 1 then none else some ⟨UInt64.ofNat n.toNat⟩

/-- Reads a number of minutes. -/
def parse (text : String) : Except CompileError Period :=
  match (Text.int64? (Text.trim text)).bind ofMinutes? with
  | some period => .ok period
  | none => .error (.malformedSchedule .period text)

end Period

end BuildPlan
