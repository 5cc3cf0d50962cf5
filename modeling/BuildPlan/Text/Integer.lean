/-!
# Integer texts

An optional sign and at least one ASCII digit; leading zeros are allowed, and nothing else is.  A text
is read into a range, and one that denotes a number outside of it is refused.
-/

namespace BuildPlan

namespace Chars

/-- The number of a digit string, most significant digit first. -/
def ofDigits (base : Nat) (digits : List Nat) : Nat :=
  digits.foldl (fun n d => n * base + d) 0

/-- The value of an ASCII digit. -/
def digit? (c : Char) : Option Nat :=
  if '0' ≤ c ∧ c ≤ '9' then some (c.toNat - '0'.toNat) else none

/-- A nonempty run of ASCII digits. -/
def nat? (cs : List Char) : Option Nat :=
  if cs.isEmpty then none else (cs.mapM digit?).map (ofDigits 10)

/-- Digits with an optional sign. -/
def int? : List Char → Option Int
  | '+' :: cs => (nat? cs).map Int.ofNat
  | '-' :: cs => (nat? cs).map fun n => -Int.ofNat n
  | cs => (nat? cs).map Int.ofNat

/-- Digits with an optional plus sign. -/
def unsigned? : List Char → Option Nat
  | '+' :: cs => nat? cs
  | cs => nat? cs

end Chars

namespace Text

/-- A signed integer of 64 bits. -/
def int64? (s : String) : Option Int :=
  (Chars.int? s.toList).filter fun n =>
    Int64.minValue.toInt ≤ n ∧ n ≤ Int64.maxValue.toInt

/-- An unsigned integer of 32 bits. -/
def uint32? (s : String) : Option UInt32 :=
  ((Chars.unsigned? s.toList).filter (· < UInt32.size)).map UInt32.ofNat

end Text

end BuildPlan
