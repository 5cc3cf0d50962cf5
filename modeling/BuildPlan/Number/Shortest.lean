import BuildPlan.Number.Binary64

/-!
# Shortest decimal texts

A finite number is written with the fewest decimal digits that still read back as the number; of several
such digit strings it gets the one nearest to the number, and of two equally near ones the larger.  The
point stands where it belongs, with zeros up to it, and never an exponent.
-/

namespace BuildPlan

namespace Binary64

/-- A number and the ends of the interval that reads back as the number, as numerators over one
denominator. -/
structure Interval where
  low : Nat
  value : Nat
  high : Nat
  den : Nat
  /-- The ends read back as the number too. -/
  closed : Bool

/-- The interval around `m · 2^e`.  Below a power of two the numbers are twice as dense. -/
def interval (m : Nat) (e : Int) : Interval :=
  let scale := (e - 2).toNat
  let below := if m = 1 <<< 52 ∧ minExponent < e then 1 else 2
  { low := (4 * m - below) <<< scale
    value := (4 * m) <<< scale
    high := (4 * m + 2) <<< scale
    den := 1 <<< (2 - e).toNat
    closed := m % 2 = 0 }

/-- How many digits a natural number has. -/
def digitCount (n : Nat) : Nat :=
  (Nat.toDigits 10 n).length

/-- The exponent `k` with `10^(k-1) ≤ value < 10^k`. -/
def Interval.magnitude (i : Interval) : Int :=
  if i.den ≤ i.value then digitCount (i.value / i.den)
  else 1 - Int.ofNat (digitCount ((i.den - 1) / i.value))

/-- Whether `n · unit`, over the denominator of the interval, reads back as the number. -/
def Interval.holds (i : Interval) (n : Nat) : Bool :=
  if i.closed then i.low ≤ n && n ≤ i.high else i.low < n && n < i.high

/-- The multiple of `10^grid` that reads back as the number, if there is one; the nearer one of two. -/
def Interval.onGrid? (i : Interval) (grid : Int) : Option Nat :=
  let zoom := Nat.pow 10 (-grid).toNat
  let j : Interval :=
    { i with low := i.low * zoom, value := i.value * zoom, high := i.high * zoom }
  let unit := i.den * Nat.pow 10 grid.toNat
  let a := j.value / unit
  match j.holds (a * unit), j.holds ((a + 1) * unit) with
  | true, true => if j.value - a * unit < (a + 1) * unit - j.value then some a else some (a + 1)
  | true, false => some a
  | false, true => some (a + 1)
  | false, false => none

/-- The shortest digits as a number `n` and the power `g` of ten of its last digit.  Seventeen digits
always read back. -/
def shortest (m : Nat) (e : Int) : Nat × Int :=
  let i := interval m e
  let k := i.magnitude
  let found := (List.range 17).findSome? fun n =>
    (i.onGrid? (k - 1 - Int.ofNat n)).map fun a => (a, k - 1 - Int.ofNat n)
  match found with
  | some (10, g) => (1, g + 1)
  | some r => r
  | none => (0, 0)

/-- The digits of `n · 10^g` with the point where it belongs. -/
def positional (n : Nat) (g : Int) : List Char :=
  let digits := Nat.toDigits 10 n
  if 0 ≤ g then digits ++ List.replicate g.toNat '0'
  else
    let places := (-g).toNat
    let padded := List.replicate (places + 1 - digits.length) '0' ++ digits
    padded.take (padded.length - places) ++ '.' :: padded.drop (padded.length - places)

/-- The shortest text of a number. -/
def text : Binary64 → String
  | .nan => "NaN"
  | .infinite negative => if negative then "-inf" else "inf"
  | .finite negative m e =>
    let digits :=
      if m = 0 then ['0']
      else
        let (n, g) := shortest m e
        positional n g
    String.ofList (if negative then '-' :: digits else digits)

end Binary64

end BuildPlan
