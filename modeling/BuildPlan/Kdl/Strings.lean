import BuildPlan.Kdl.Character

/-!
# Strings of documents

A quoted string stands on one line between single double quotes, or on lines of its own between triple
ones.  A backslash begins an escape; one before blanks stands for nothing and takes them along, and none
stands inside another escape.  A raw string has number signs around its quotes and no escapes.  The lines
of a multi-line string share the indentation of its last line, which is taken away.
-/

namespace BuildPlan.Kdl

/-! ### Where a string ends -/

/-- The text up to the closing mark, and the text behind it.  A backslash hides the character after it. -/
def cutEscaped (closing : List Char) : List Char → Option (List Char × List Char)
  | [] => none
  | '\\' :: c :: rest => (cutEscaped closing rest).map fun (body, r) => ('\\' :: c :: body, r)
  | c :: rest =>
    if closing.isPrefixOf (c :: rest) then some ([], (c :: rest).drop closing.length)
    else (cutEscaped closing rest).map fun (body, r) => (c :: body, r)

/-- The text up to the closing mark, and the text behind it. -/
def cutRaw (closing : List Char) : List Char → Option (List Char × List Char)
  | [] => none
  | c :: rest =>
    if closing.isPrefixOf (c :: rest) then some ([], (c :: rest).drop closing.length)
    else (cutRaw closing rest).map fun (body, r) => (c :: body, r)

/-! ### Escapes -/

/-- A part of the text of a string.  Only a literal character can end a line or belong to the
indentation. -/
inductive Piece where
  | literal (c : Char)
  /-- A character that an escape stands for. -/
  | escaped (c : Char)
  /-- A backslash before blanks. -/
  | gap
  deriving DecidableEq, Repr

namespace Piece

/-- The character of a piece; a gap has none. -/
def char? : Piece → Option Char
  | .literal c | .escaped c => some c
  | .gap => none

/-- A literal space. -/
def isSpace : Piece → Bool
  | .literal c => Kdl.isSpace c
  | _ => false

/-- A literal line end. -/
def isNewline : Piece → Bool
  | .literal c => Kdl.isNewline c
  | _ => false

/-- A literal space or line end. -/
def isBlank (p : Piece) : Bool :=
  p.isSpace || p.isNewline

/-- The text of pieces. -/
def text (ps : List Piece) : String :=
  String.ofList (ps.filterMap char?)

/-- The character that an escape of one letter stands for. -/
def ofLetter? : Char → Option Char
  | '"' => some '"'
  | '\\' => some '\\'
  | 'b' => some '\x08'
  | 'f' => some '\x0c'
  | 'n' => some '\n'
  | 'r' => some '\r'
  | 't' => some '\t'
  | 's' => some ' '
  | _ => none

/-- The character with the code point of one to six hexadecimal digits. -/
def ofCode? (digits : List Nat) : Option Char :=
  let n := digits.foldl (fun n d => n * 16 + d) 0
  if 1 ≤ digits.length ∧ digits.length ≤ 6 then
    if h : n.isValidChar then some (Char.ofNatAux n h) else none
  else none

/-- The pieces of a text with escapes.  The first argument holds the digits of the code point that is
being read, if one is. -/
def read? : Option (List Nat) → List Char → Option (List Piece)
  | none, [] => some []
  | none, '\\' :: 'u' :: '\x7b' :: rest => read? (some []) rest
  | none, '\\' :: c :: rest => do
    let ps ← read? none rest
    if (literal c).isBlank then return gap :: literal c :: ps
    else return escaped (← ofLetter? c) :: ps
  | none, c :: rest => if c = '\\' then none else (read? none rest).map (literal c :: ·)
  | some _, [] => none
  | some digits, c :: rest =>
    if c = '\x7d' then do
      let c ← ofCode? digits
      return escaped c :: (← read? none rest)
    else do
      let d ← hexDigit? c
      read? (some (digits ++ [d])) rest

/-- Takes out every gap, and the blanks behind it.  The flag tells that one stands right before. -/
def close : Bool → List Piece → List Piece
  | _, [] => []
  | _, gap :: rest => close true rest
  | afterGap, p :: rest => if afterGap && p.isBlank then close true rest else p :: close false rest

/-! ### Lines -/

/-- The lines of a text. -/
def lines : List Piece → List (List Piece)
  | [] => [[]]
  | .literal '\r' :: .literal '\n' :: rest => [] :: lines rest
  | p :: rest => if p.isNewline then [] :: lines rest else (lines rest).modifyHead (p :: ·)

/-- A line without the common indentation; a line of spaces is empty. -/
def unindent? (indent line : List Piece) : Option (List Piece) :=
  if line.all isSpace then some []
  else if indent.isPrefixOf line then some (line.drop indent.length)
  else none

/-- The text of a multi-line string, given what stands behind the line end after its opening quotes. -/
def dedent? (body : List Piece) : Option (List Piece) :=
  let indent := (lines body).getLast?.getD []
  if indent.all isSpace then
    ((lines body).dropLast.mapM (unindent? indent)).map (([literal '\n'] : List Piece).intercalate ·)
  else none

end Piece

/-! ### Reading strings -/

/-- Reads what follows an opening double quote: the text of the string, and what stands behind it. -/
def quoted? : List Char → Option (String × List Char)
  | '"' :: '"' :: cs => do
    let body ← dropNewline? cs
    let (body, rest) ← cutEscaped ['"', '"', '"'] body
    let body ← Piece.read? none body
    let body ← Piece.dedent? (Piece.close false body)
    return (Piece.text body, rest)
  | cs => do
    let (body, rest) ← cutEscaped ['"'] cs
    let body ← Piece.read? none body
    let body := Piece.close false body
    if body.any Piece.isNewline then none else return (Piece.text body, rest)

/-- Reads what follows the opening double quote of a raw string with the given number of signs. -/
def raw? (signs : Nat) : List Char → Option (String × List Char)
  | '"' :: '"' :: cs => do
    let body ← dropNewline? cs
    let (body, rest) ← cutRaw ('"' :: '"' :: '"' :: List.replicate signs '#') body
    let body ← Piece.dedent? (body.map .literal)
    return (Piece.text body, rest)
  | cs => do
    let (body, rest) ← cutRaw ('"' :: List.replicate signs '#') cs
    if body.any isNewline then none else return (String.ofList body, rest)

/-! ### What stands behind is no longer than what was there -/

theorem length_lt_of_dropNewline? {cs rest : List Char} (h : dropNewline? cs = some rest) :
    rest.length < cs.length := by
  unfold dropNewline? at h
  split at h
  · cases h
    simp only [List.length_cons]
    omega
  · split at h
    · cases h
      simp
    · cases h
  · cases h

theorem length_le_of_cutEscaped {closing cs body rest : List Char}
    (h : cutEscaped closing cs = some (body, rest)) : rest.length ≤ cs.length := by
  fun_induction cutEscaped closing cs generalizing body with
  | case1 => cases h
  | case2 c cs ih =>
    simp only [Option.map_eq_some_iff, Prod.mk.injEq] at h
    obtain ⟨⟨b, r⟩, hr, _, rfl⟩ := h
    have : r.length ≤ cs.length := ih hr
    simp only [List.length_cons]
    omega
  | case3 c cs _ hp =>
    cases h
    simp
  | case4 c cs _ hp ih =>
    simp only [Option.map_eq_some_iff, Prod.mk.injEq] at h
    obtain ⟨⟨b, r⟩, hr, _, rfl⟩ := h
    have : r.length ≤ cs.length := ih hr
    simp only [List.length_cons]
    omega

theorem length_le_of_cutRaw {closing cs body rest : List Char}
    (h : cutRaw closing cs = some (body, rest)) : rest.length ≤ cs.length := by
  fun_induction cutRaw closing cs generalizing body with
  | case1 => cases h
  | case2 c cs hp =>
    cases h
    simp
  | case3 c cs hp ih =>
    simp only [Option.map_eq_some_iff, Prod.mk.injEq] at h
    obtain ⟨⟨b, r⟩, hr, _, rfl⟩ := h
    have : r.length ≤ cs.length := ih hr
    simp only [List.length_cons]
    omega

theorem length_le_of_quoted? {cs rest : List Char} {s : String} (h : quoted? cs = some (s, rest)) :
    rest.length ≤ cs.length := by
  unfold quoted? at h
  split at h
  · simp only [Option.bind_eq_bind, Option.bind_eq_some_iff] at h
    obtain ⟨body, hb, ⟨b, r⟩, hr, ps, hp, qs, hq, h⟩ := h
    cases h
    have h₁ := length_lt_of_dropNewline? hb
    have h₂ := length_le_of_cutEscaped hr
    simp only [List.length_cons]
    omega
  · simp only [Option.bind_eq_bind, Option.bind_eq_some_iff] at h
    obtain ⟨⟨b, r⟩, hr, ps, hp, h⟩ := h
    split at h
    · cases h
    · cases h
      exact length_le_of_cutEscaped hr

theorem length_le_of_raw? {signs : Nat} {cs rest : List Char} {s : String}
    (h : raw? signs cs = some (s, rest)) : rest.length ≤ cs.length := by
  unfold raw? at h
  split at h
  · simp only [Option.bind_eq_bind, Option.bind_eq_some_iff] at h
    obtain ⟨body, hb, ⟨b, r⟩, hr, t, ht, h⟩ := h
    cases h
    have h₁ := length_lt_of_dropNewline? hb
    have h₂ := length_le_of_cutRaw hr
    simp only [List.length_cons]
    omega
  · simp only [Option.bind_eq_bind, Option.bind_eq_some_iff] at h
    obtain ⟨⟨b, r⟩, hr, h⟩ := h
    split at h
    · cases h
    · cases h
      exact length_le_of_cutRaw hr

end BuildPlan.Kdl
