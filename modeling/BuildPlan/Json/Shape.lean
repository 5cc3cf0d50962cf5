import BuildPlan.Json.Value

/-!
# Shapes of JSON values

How a record, a tagged record and a bare name are recognised in a JSON value.

* A record is an object, in which order and unknown members do not matter, or the list of exactly its
  fields in order.
* A tagged record is an object with a member that names its kind, or a list that begins with the kind.
* A bare name is a string, or an object whose only member has that name and the value `null`.

What stands inside a tagged record is read after the tag is known, from a copy of its parts
(`Place.buffered`).  There a tag may also be the position of its kind, and the value under a bare name
may also be an empty object.
-/

namespace BuildPlan.Json

/-- Where a value stands: on its own, or among the parts of a tagged record. -/
inductive Place where
  | direct
  | buffered
  deriving DecidableEq

/-- The members of a record with the given fields. -/
def members? (fields : List String) : Json → Option (List (String × Json))
  | .obj members => some members
  | .arr items => if items.length = fields.length then some (fields.zip items) else none
  | _ => none

/-- A member that has to be there. -/
def field? {α : Type} (members : List (String × Json)) (name : String) (form? : Json → Option α) :
    Option α :=
  (members.lookup name).bind form?

/-- A member that may be missing, or be `null`. -/
def optionalField? {α : Type} (members : List (String × Json)) (name : String)
    (form? : Json → Option α) : Option (Option α) :=
  match members.lookup name with
  | none => some none
  | some j => j.option? form?

/-- The kind that a tag names. -/
def kind? {κ : Type} (place : Place) (kinds : List (String × κ)) : Json → Option κ
  | .str name => kinds.lookup name
  | .int n =>
    match place with
    | .direct => none
    | .buffered => if 0 ≤ n then (kinds[n.toNat]?).map Prod.snd else none
  | _ => none

/-- The kind of a tagged record, and its other parts. -/
def tagged? {κ : Type} (place : Place) (tag : String) (kinds : List (String × κ)) :
    Json → Option (κ × Json)
  | .obj members => do
    let kind ← field? members tag (kind? place kinds)
    return (kind, .obj (members.filter (·.1 != tag)))
  | .arr (first :: rest) => do
    let kind ← kind? place kinds first
    return (kind, .arr rest)
  | _ => none

/-- Whether the value may stand under a bare name. -/
def isUnit (place : Place) : Json → Bool
  | .null => true
  | .obj [] => place == .buffered
  | _ => false

/-- One of a list of bare names. -/
def name? {κ : Type} (place : Place) (names : List (String × κ)) : Json → Option κ
  | .str name => names.lookup name
  | .obj [(name, j)] => if isUnit place j then names.lookup name else none
  | _ => none

end BuildPlan.Json
