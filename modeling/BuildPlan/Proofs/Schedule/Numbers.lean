import BuildPlan.CompileError
import BuildPlan.Proofs.Text.Integer
import BuildPlan.Schedule
import Mathlib.Tactic.MkIffOfInductiveProp

/-!
# Options that are numbers

Windows, periods and time limits are positive integers of 64 bits, and a window may also be 0, which stands
for the standard one (`NumberOption.Takes`, `NumberOption.meaning`).  A window or a period is read from a
text just if the text denotes a number that its option takes.
-/

namespace BuildPlan

/-- An option that is a number. -/
inductive NumberOption where
  /-- How long a tree has to be stable, in seconds. -/
  | window
  /-- The time between two builds, in minutes. -/
  | period
  /-- How long a step may take, in seconds. -/
  | timeout (which : TimeoutOption)
  deriving DecidableEq, Repr

namespace NumberOption

variable {option : NumberOption} {n : Int}

/-- The least number that an option takes. -/
def least : NumberOption → Int
  | .window => 0
  | .period | .timeout _ => 1

/-- The number that is meant by a number: a window of 0 means the standard one. -/
def meaning : NumberOption → Int → Int
  | .window, n => if n = 0 then 600 else n
  | .period, n | .timeout _, n => n

@[simp] theorem least_window : window.least = 0 := rfl

@[simp] theorem least_period : period.least = 1 := rfl

@[simp] theorem least_timeout (which : TimeoutOption) : (timeout which).least = 1 := rfl

theorem least_nonneg (option : NumberOption) : 0 ≤ option.least := by
  cases option <;> simp

@[simp] theorem meaning_window (n : Int) : window.meaning n = if n = 0 then 600 else n := rfl

@[simp] theorem meaning_period (n : Int) : period.meaning n = n := rfl

@[simp] theorem meaning_timeout (which : TimeoutOption) (n : Int) : (timeout which).meaning n = n := rfl

/-- An option takes the numbers from its least one up to the greatest signed integer of 64 bits, which is
`2^63 - 1`. -/
@[mk_iff]
structure Takes (option : NumberOption) (n : Int) : Prop where
  least_le : option.least ≤ n
  le_greatest : n ≤ 9223372036854775807

/-- What is meant by a number that an option takes is positive, and no greater than an option takes. -/
theorem Takes.meaning_range (h : option.Takes n) :
    1 ≤ option.meaning n ∧ option.meaning n ≤ 9223372036854775807 := by
  obtain ⟨hleast, hle⟩ := h
  cases option with
  | window =>
    simp only [least_window, meaning_window] at hleast ⊢
    split <;> omega
  | period => exact ⟨hleast, hle⟩
  | timeout which => exact ⟨hleast, hle⟩

/-- The number that is meant, as the amount that is kept. -/
def amount (option : NumberOption) (n : Int) : UInt64 :=
  UInt64.ofNat (option.meaning n).toNat

/-- No number that an option takes is too great to be kept. -/
theorem toNat_amount (h : option.Takes n) : ((option.amount n).toNat : Int) = option.meaning n := by
  obtain ⟨hpos, hle⟩ := h.meaning_range
  have hlt : (option.meaning n).toNat < UInt64.size := by
    rw [show UInt64.size = 18446744073709551616 from rfl]
    omega
  rw [amount, UInt64.toNat_ofNat_of_lt' hlt]
  omega

theorem amount_pos (h : option.Takes n) : 0 < option.amount n := by
  have hpos := h.meaning_range.1
  rw [← toNat_amount h] at hpos
  rw [UInt64.lt_iff_toNat_lt]
  show 0 < (option.amount n).toNat
  omega

/-- The amount is told by the number that is meant. -/
theorem eq_amount_iff {x : UInt64} (h : option.Takes n) :
    x = option.amount n ↔ (x.toNat : Int) = option.meaning n := by
  rw [← toNat_amount h, ← UInt64.toNat_inj]
  omega

end NumberOption

open NumberOption (amount)

theorem FixedWindow.ofSecs?_eq_some_iff {n : Int} {w : FixedWindow} :
    ofSecs? n = some w ↔ 0 ≤ n ∧ w = ⟨amount .window n⟩ := by
  unfold ofSecs? amount
  rw [NumberOption.meaning_window]
  -- nothing stands for the standard window, and less than nothing is refused
  by_cases hzero : n = 0
  · subst hzero
    simp [standard, eq_comm]
  · by_cases hneg : n < 0
    · have hnot : ¬ 0 ≤ n := Int.not_le.mpr hneg
      simp [hzero, hneg, hnot]
    · have hnonneg : 0 ≤ n := Int.not_lt.mp hneg
      simp [hzero, hneg, hnonneg, eq_comm]

theorem Period.ofMinutes?_eq_some_iff {n : Int} {q : Period} :
    ofMinutes? n = some q ↔ 1 ≤ n ∧ q = ⟨amount .period n⟩ := by
  unfold ofMinutes? amount
  rw [NumberOption.meaning_period]
  by_cases hlow : n < 1
  · have hnot : ¬ 1 ≤ n := Int.not_le.mpr hlow
    simp [hlow, hnot]
  · have hle : 1 ≤ n := Int.not_lt.mp hlow
    simp [hlow, hle, eq_comm]

/-- A text is read by way of the integer that it denotes. -/
theorem bind_int64?_eq_some_iff {α : Type} {option : NumberOption} {of? : Int → Option α}
    {text : String} {a : α} (make : UInt64 → α)
    (hof : ∀ n a, of? n = some a ↔ option.least ≤ n ∧ a = make (option.amount n)) :
    (Text.int64? (Text.trim text)).bind of? = some a ↔
      ∃ n, Text.Denotes text n ∧ option.Takes n ∧ a = make (option.amount n) := by
  rw [Option.bind_eq_some_iff]
  constructor
  · rintro ⟨n, hn, ha⟩
    obtain ⟨hdenotes, -, hle⟩ := Text.int64?_trim_eq_some_iff.mp hn
    obtain ⟨hleast, rfl⟩ := (hof n a).mp ha
    exact ⟨n, hdenotes, ⟨hleast, hle⟩, rfl⟩
  · rintro ⟨n, hdenotes, ⟨hleast, hle⟩, rfl⟩
    -- what an option takes is no less than nothing, so it is within the range read
    have hnonneg := option.least_nonneg
    have hmin : -9223372036854775808 ≤ n := by omega
    exact ⟨n, Text.int64?_trim_eq_some_iff.mpr ⟨hdenotes, hmin, hle⟩, (hof n _).mpr ⟨hleast, rfl⟩⟩

/-- A window is read from a text that denotes a number it takes. -/
theorem FixedWindow.parse_eq_ok_iff {text : String} {w : FixedWindow} :
    parse text = .ok w ↔
      ∃ n, Text.Denotes text n ∧ NumberOption.window.Takes n ∧ w = ⟨amount .window n⟩ := by
  rw [← bind_int64?_eq_some_iff FixedWindow.mk fun _ _ => ofSecs?_eq_some_iff]
  unfold parse
  split
  · next he => rw [he, Except.ok.injEq, Option.some.injEq]
  · next he => simp [he]

theorem FixedWindow.pos_of_parse {text : String} {w : FixedWindow} (h : parse text = .ok w) :
    0 < w.secs := by
  obtain ⟨n, -, htakes, rfl⟩ := parse_eq_ok_iff.mp h
  exact NumberOption.amount_pos htakes

/-- A period is read from a text that denotes a number it takes. -/
theorem Period.parse_eq_ok_iff {text : String} {q : Period} :
    parse text = .ok q ↔
      ∃ n, Text.Denotes text n ∧ NumberOption.period.Takes n ∧ q = ⟨amount .period n⟩ := by
  rw [← bind_int64?_eq_some_iff Period.mk fun _ _ => ofMinutes?_eq_some_iff]
  unfold parse
  split
  · next he => rw [he, Except.ok.injEq, Option.some.injEq]
  · next he => simp [he]

theorem Period.pos_of_parse {text : String} {q : Period} (h : parse text = .ok q) : 0 < q.minutes := by
  obtain ⟨n, -, htakes, rfl⟩ := parse_eq_ok_iff.mp h
  exact NumberOption.amount_pos htakes

end BuildPlan
