import BuildPlan.Kdl.Token

/-!
# Nodes of documents

A document is a list of nodes.  A node has a name, entries and children; an entry is an argument or, with
a key, a property.  `Node.parse?` reads a document: the blocks between braces are read from the inside
out, and within a block each statement is one node.  Type annotations are read and left out.
-/

namespace BuildPlan.Kdl

/-- An argument or a property of a node. -/
structure Entry where
  key : Option String
  value : Value
  deriving DecidableEq, Repr

/-- A node of a document. -/
structure Node where
  name : String
  entries : List Entry
  children : List Node

mutual

/-- Whether two nodes are the same. -/
def Node.decEq : (a b : Node) → Decidable (a = b)
  | ⟨name, entries, children⟩, ⟨name', entries', children'⟩ =>
    have := Node.decEqList children children'
    decidable_of_iff (name = name' ∧ entries = entries' ∧ children = children') (by simp)

/-- Whether two lists of nodes are the same. -/
def Node.decEqList : (as bs : List Node) → Decidable (as = bs)
  | [], [] => isTrue rfl
  | [], _ :: _ => isFalse (by simp)
  | _ :: _, [] => isFalse (by simp)
  | a :: as, b :: bs =>
    have := Node.decEq a b
    have := Node.decEqList as bs
    decidable_of_iff (a = b ∧ as = bs) (by simp)

end

instance : DecidableEq Node := Node.decEq

/-- A part of a statement: a token, or a block that has been read. -/
inductive Item where
  | token (t : Token)
  | block (nodes : List Node)

namespace Item

/-- The items behind leading spaces. -/
def dropSpaces : List Item → List Item
  | .token .space :: rest => dropSpaces rest
  | items => items

/-- The items behind a type annotation and the spaces after it, if there is one. -/
def dropType? : List Item → Option (List Item)
  | .token .openType :: rest =>
    match dropSpaces rest with
    | .token (.word _) :: rest =>
      match dropSpaces rest with
      | .token .closeType :: rest => some (dropSpaces rest)
      | _ => none
    | _ => none
  | items => some items

/-- A value with an optional type annotation, and the items behind it. -/
def value? (items : List Item) : Option (Value × List Item) := do
  match ← dropType? items with
  | .token (.word s) :: rest => return (.text s, rest)
  | .token (.value v) :: rest => return (v, rest)
  | _ => none

/-- A property or an argument, and the items behind it. -/
def argument? (items : List Item) : Option (Entry × List Item) :=
  match items with
  | .token (.word s) :: rest =>
    match dropSpaces rest with
    | .token .equals :: rest => (value? (dropSpaces rest)).map fun (v, rest) => (⟨some s, v⟩, rest)
    | _ => some (⟨none, .text s⟩, rest)
  | _ => (value? items).map fun (v, rest) => (⟨none, v⟩, rest)

/-! ### What stands behind is no longer than what was there -/

theorem length_dropSpaces_le (items : List Item) : (dropSpaces items).length ≤ items.length := by
  fun_induction dropSpaces items with
  | case1 rest ih =>
    simp only [List.length_cons]
    omega
  | case2 => exact Nat.le_refl _

theorem length_le_of_dropType? {items rest : List Item} (h : dropType? items = some rest) :
    rest.length ≤ items.length := by
  unfold dropType? at h
  split at h
  · rename_i r₁
    have h₁ := length_dropSpaces_le r₁
    split at h
    · rename_i s r₂ e₂
      have h₂ := length_dropSpaces_le r₂
      split at h
      · rename_i r₃ e₃
        have h₃ := length_dropSpaces_le r₃
        cases h
        simp only [e₂, e₃, List.length_cons] at h₁ h₂ ⊢
        omega
      · cases h
    · cases h
  · cases h
    exact Nat.le_refl _

theorem length_lt_of_value? {items rest : List Item} {v : Value}
    (h : value? items = some (v, rest)) : rest.length < items.length := by
  unfold value? at h
  simp only [Option.bind_eq_bind, Option.bind_eq_some_iff] at h
  obtain ⟨r, hr, h⟩ := h
  have := length_le_of_dropType? hr
  split at h
  · cases h
    exact this
  · cases h
    exact this
  · cases h

theorem length_lt_of_argument? {items rest : List Item} {e : Entry}
    (h : argument? items = some (e, rest)) : rest.length < items.length := by
  unfold argument? at h
  split at h
  · rename_i s r₁
    have h₁ := length_dropSpaces_le r₁
    split at h
    · rename_i r₂ e₂
      have h₂ := length_dropSpaces_le r₂
      simp only [Option.map_eq_some_iff, Prod.mk.injEq] at h
      obtain ⟨⟨v, r⟩, hr, _, rfl⟩ := h
      have h₃ : r.length < _ := length_lt_of_value? hr
      simp only [e₂, List.length_cons] at h₁ ⊢
      omega
    · cases h
      simp
  · simp only [Option.map_eq_some_iff, Prod.mk.injEq] at h
    obtain ⟨⟨v, r⟩, hr, _, rfl⟩ := h
    exact length_lt_of_value? hr

/-! ### Nodes -/

/-- Whether a space stands in front. -/
def startsSpaced : List Item → Bool
  | .token .space :: _ => true
  | _ => false

/-- The entries of a node and the items behind them.  In front of an entry stands a space, and possibly a
slashdash, which takes the entry out. -/
def entries? (items : List Item) : Option (List Entry × List Item) :=
  match _hd : dropSpaces items with
  | [] => some ([], items)
  | .block _ :: _ => some ([], items)
  | .token .slashdash :: .block _ :: _ => some ([], items)
  | .token .slashdash :: rest =>
    match _h : argument? rest with
    | none => none
    | some (_, rest) => if startsSpaced items then entries? rest else none
  | first :: rest =>
    match _h : argument? (first :: rest) with
    | none => none
    | some (e, rest) =>
      if startsSpaced items then (entries? rest).map fun (es, rest) => (e :: es, rest) else none
termination_by items.length
decreasing_by
  · have h₁ := length_dropSpaces_le items
    have h₂ := length_lt_of_argument? _h
    simp only [_hd, List.length_cons] at h₁
    omega
  · have h₁ := length_dropSpaces_le items
    have h₂ := length_lt_of_argument? _h
    rw [_hd] at h₁
    omega

/-- The children of a node: at most one block that is not taken out, and nothing else.  In front of a
block that is taken out stands a space.  The flag tells that the block has been found. -/
def children? (found : Bool) : List Item → Option (List Node)
  | [] => some []
  | .token .space :: .token .slashdash :: .block _ :: rest => children? found rest
  | .token .space :: rest => children? found rest
  | .block nodes :: rest =>
    if found then none else (children? true rest).map fun _ => nodes
  | _ => none

/-- The items of a statement without the slashdash in front, and whether there is one. -/
def dashed : List Item → Bool × List Item
  | .token .slashdash :: rest => (true, rest)
  | items => (false, items)

/-- A statement: a node, possibly taken out, or nothing but spaces. -/
def statement? (items : List Item) : Option (List Node) :=
  match dropSpaces items with
  | [] => some []
  | items => do
    let (out, items) := dashed items
    match dropSpaces (← dropType? items) with
    | .token (.word name) :: rest =>
      let (entries, rest) ← entries? rest
      let children ← children? false rest
      return if out then [] else [{ name, entries, children }]
    | _ => none

/-- Whether nothing but spaces stands in a statement. -/
def isBlank (items : List Item) : Bool :=
  (dropSpaces items).isEmpty

/-- Reads statements up to the end of a block.  The first argument holds the items of the current
statement, last one first.  A semicolon ends a statement that is not blank. -/
def statements? : List Item → List Item → Option (List Node)
  | current, [] => statement? current.reverse
  | current, .token .newline :: rest => do
    return (← statement? current.reverse) ++ (← statements? [] rest)
  | current, .token .semicolon :: rest => do
    if isBlank current.reverse then none
    else return (← statement? current.reverse) ++ (← statements? [] rest)
  | current, item :: rest => statements? (item :: current) rest

/-- Reads blocks from the inside out.  The arguments hold the items of the current block and of the
blocks around it, last one first. -/
def nest? : List Item → List (List Item) → List Token → Option (List Node)
  | current, [], [] => statements? [] current.reverse
  | _, _ :: _, [] => none
  | current, outer, .openBlock :: rest => nest? [] (current :: outer) rest
  | _, [], .closeBlock :: _ => none
  | current, around :: outer, .closeBlock :: rest => do
    let nodes ← statements? [] current.reverse
    nest? (.block nodes :: around) outer rest
  | current, outer, t :: rest => nest? (.token t :: current) outer rest

end Item

namespace Node

/-- Reads a document. -/
def parse? (text : String) : Option (List Node) := do
  Item.nest? [] [] (← tokens? text.toList)

/-- The name of an option: underscores and dashes are the same. -/
def key (n : Node) : String :=
  String.ofList (n.name.toList.map fun c => if c = '_' then '-' else c)

/-- The values of the arguments. -/
def arguments (n : Node) : List Value :=
  (n.entries.filter fun e => e.key.isNone).map Entry.value

/-- The first argument, if it is a text. -/
def firstText? (n : Node) : Option String :=
  n.arguments.head?.bind Value.text?

/-- The first argument as text, whatever its type. -/
def firstScalar? (n : Node) : Option String :=
  n.arguments.head?.map Value.scalar

/-- All arguments that are texts. -/
def texts (n : Node) : List String :=
  n.arguments.filterMap Value.text?

end Node

end BuildPlan.Kdl
