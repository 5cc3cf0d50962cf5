/-!
# Binary floating point numbers of 64 bits

A finite number is `significand · 2^exponent` with a significand below `2^53` and an exponent of at least
`-1074`; `ofRatio` and `ofDecimal` give the number nearest to an exact value, and of two that are
equally near the one with the even significand.
-/

namespace BuildPlan

/-- A binary floating point number of 64 bits. -/
inductive Binary64 where
  | finite (negative : Bool) (significand : Nat) (exponent : Int)
  | infinite (negative : Bool)
  | nan
  deriving DecidableEq, Repr

namespace Binary64

/-- The quotient rounded to the nearest integer, a tie to the even one. -/
def divNearest (num den : Nat) : Nat :=
  let q := num / den
  let r := 2 * (num % den)
  if r < den then q else if den < r then q + 1 else q + q % 2

/-- The base-2 exponent of a positive ratio: the largest `k` with `2^k * den ≤ num`. -/
def log2Ratio (num den : Nat) : Int :=
  let k : Int := Int.ofNat num.log2 - Int.ofNat den.log2
  if den <<< k.toNat ≤ num <<< (-k).toNat then k else k - 1

/-- The smallest exponent of a finite number. -/
def minExponent : Int :=
  -1074

/-- The largest exponent of a finite number. -/
def maxExponent : Int :=
  971

/-- The number nearest to a positive ratio, with a sign. -/
def ofRatio (negative : Bool) (num den : Nat) : Binary64 :=
  let e := max (log2Ratio num den - 52) minExponent
  let m := divNearest (num <<< (-e).toNat) (den <<< e.toNat)
  let (m, e) := if m = 1 <<< 53 then (1 <<< 52, e + 1) else (m, e)
  if maxExponent < e then .infinite negative else .finite negative m e

/-- The number nearest to `digits · 10^exponent`, with a sign.  Decimal exponents that are out of reach
of every finite number are settled first. -/
def ofDecimal (negative : Bool) (digits : Nat) (exponent : Int) : Binary64 :=
  let magnitude := exponent + (Nat.toDigits 10 digits).length
  if digits = 0 ∨ magnitude < -400 then .finite negative 0 minExponent
  else if 400 < magnitude then .infinite negative
  else ofRatio negative (digits * Nat.pow 10 exponent.toNat) (Nat.pow 10 (-exponent).toNat)

end Binary64

end BuildPlan
