/-!
# JSON values

A value is a tree; the members of an object are kept in the order in which they are written.  Numbers
that are written as integers are integers of any size, and every other number keeps its text.
-/

namespace BuildPlan

/-- A JSON value. -/
inductive Json where
  | null
  | bool (b : Bool)
  /-- A number written without fraction and exponent. -/
  | int (n : Int)
  /-- Any other number, as written. -/
  | real (text : String)
  | str (s : String)
  | arr (items : List Json)
  | obj (members : List (String × Json))
  deriving Inhabited

namespace Json

/-- A list of strings. -/
def strings (ss : List String) : Json :=
  .arr (ss.map .str)

/-- A value that may be absent; absence is `null`. -/
def ofOption {α : Type} (form : α → Json) : Option α → Json
  | none => .null
  | some a => form a

/-- The string of a string value. -/
def str? : Json → Option String
  | .str s => some s
  | _ => none

/-- The truth value of a boolean. -/
def bool? : Json → Option Bool
  | .bool b => some b
  | _ => none

/-- An unsigned integer of 32 bits. -/
def uint32? : Json → Option UInt32
  | .int n => if 0 ≤ n ∧ n < UInt32.size then some (UInt32.ofNat n.toNat) else none
  | _ => none

/-- An unsigned integer of 64 bits. -/
def uint64? : Json → Option UInt64
  | .int n => if 0 ≤ n ∧ n < UInt64.size then some (UInt64.ofNat n.toNat) else none
  | _ => none

/-- A list whose items all have the given form. -/
def list? {α : Type} (item? : Json → Option α) : Json → Option (List α)
  | .arr items => items.mapM item?
  | _ => none

/-- A list of strings. -/
def strings? (j : Json) : Option (List String) :=
  j.list? str?

/-- `null`, or a value of the given form. -/
def option? {α : Type} (form? : Json → Option α) : Json → Option (Option α)
  | .null => some none
  | j => (form? j).map some

end Json

end BuildPlan
