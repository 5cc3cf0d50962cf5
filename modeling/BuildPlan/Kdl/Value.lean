import BuildPlan.Kdl.Character
import BuildPlan.Number.Shortest
import BuildPlan.Text.Integer

/-!
# Values of documents

A value is a text, a number, a truth value or null.  A number without a point and without an exponent is
an integer; every other number is a floating point number.  What stands in digits in a number, be it the
whole number, a fraction or an exponent, is below `2^127`.
-/

namespace BuildPlan.Kdl

/-- A value in a document. -/
inductive Value where
  | text (s : String)
  | integer (n : Int)
  | float (x : Binary64)
  | bool (b : Bool)
  | null
  deriving DecidableEq, Repr

namespace Value

/-- The text of a text value. -/
def text? : Value → Option String
  | .text s => some s
  | _ => none

/-- Any value as text; null is empty. -/
def scalar : Value → String
  | .text s => s
  | .integer n => toString n
  | .float x => x.text
  | .bool b => if b then "true" else "false"
  | .null => ""

/-- The values that are written with a number sign in front. -/
def keywords : List (String × Value) :=
  [("true", .bool true), ("false", .bool false), ("null", .null), ("inf", .float (.infinite false)),
    ("-inf", .float (.infinite true)), ("nan", .float .nan)]

/-! ### Numbers -/

/-- A digit of a base up to 16. -/
def baseDigit? (base : Nat) (c : Char) : Option Nat :=
  (Kdl.hexDigit? c).filter (· < base)

/-- What the digits of a part of a number denote is below this number. -/
def digitsLimit : Nat :=
  1 <<< 127

/-- The digits of a part of a number: a digit first, then digits and underscores, which are skipped. -/
def digits? (base : Nat) : List Char → Option (List Nat)
  | [] => none
  | c :: cs =>
    if c = '_' then none
    else ((c :: cs.filter (· != '_')).mapM (baseDigit? base)).filter fun ds =>
      Chars.ofDigits base ds < digitsLimit

/-- A number with a sign. -/
def signed (negative : Bool) (n : Nat) : Int :=
  if negative then -Int.ofNat n else Int.ofNat n

/-- An exponent: digits with an optional sign. -/
def exponent? : List Char → Option Int
  | '+' :: cs => (digits? 10 cs).map fun ds => signed false (Chars.ofDigits 10 ds)
  | '-' :: cs => (digits? 10 cs).map fun ds => signed true (Chars.ofDigits 10 ds)
  | cs => (digits? 10 cs).map fun ds => signed false (Chars.ofDigits 10 ds)

/-- A decimal number: digits, then possibly a point and digits, then possibly an exponent. -/
def decimal? (negative : Bool) (cs : List Char) : Option Value := do
  let mantissa := cs.takeWhile fun c => c != 'e' && c != 'E'
  let power := (cs.dropWhile fun c => c != 'e' && c != 'E').tail?
  let whole ← digits? 10 (mantissa.takeWhile (· != '.'))
  match (mantissa.dropWhile (· != '.')).tail?, power with
  | none, none => return .integer (signed negative (Chars.ofDigits 10 whole))
  | fraction, power =>
    let fraction ← fraction.elim (some []) (digits? 10)
    let power ← power.elim (some 0) exponent?
    return .float <|
      .ofDecimal negative (Chars.ofDigits 10 (whole ++ fraction)) (power - fraction.length)

/-- An integer in a base that is not 10. -/
def inBase? (base : Nat) (negative : Bool) (cs : List Char) : Option Value :=
  (digits? base cs).map fun ds => .integer (signed negative (Chars.ofDigits base ds))

/-- A number without its sign. -/
def unsigned? (negative : Bool) : List Char → Option Value
  | '0' :: 'x' :: cs => inBase? 16 negative cs
  | '0' :: 'o' :: cs => inBase? 8 negative cs
  | '0' :: 'b' :: cs => inBase? 2 negative cs
  | cs => decimal? negative cs

/-- A number with an optional sign. -/
def number? : List Char → Option Value
  | '+' :: cs => unsigned? false cs
  | '-' :: cs => unsigned? true cs
  | cs => unsigned? false cs

end Value

end BuildPlan.Kdl
