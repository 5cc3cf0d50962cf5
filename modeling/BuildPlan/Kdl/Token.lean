import BuildPlan.Kdl.Strings
import BuildPlan.Kdl.Value

/-!
# Tokens of documents

`tokens?` cuts a text into tokens.  Comments inside lines are spaces, and a comment up to the end of its
line is a line end.  A line end after a backslash is a space (`joinLines?`), and what a slashdash takes
out may stand behind spaces and line ends (`attach`).
-/

namespace BuildPlan.Kdl

/-- A token. -/
inductive Token where
  | space
  | newline
  | semicolon
  /-- A backslash, which continues a line. -/
  | continuation
  /-- Takes out what follows it. -/
  | slashdash
  | openBlock
  | closeBlock
  | openType
  | closeType
  | equals
  /-- A bare word or a string. -/
  | word (s : String)
  /-- A number or a keyword. -/
  | value (v : Value)
  deriving DecidableEq, Repr

namespace Token

/-- The text behind a comment that is open at some levels. -/
def skipComment : Nat → List Char → Option (List Char)
  | _, [] => none
  | level, '*' :: '/' :: rest =>
    match level with
    | 0 => some rest
    | level + 1 => skipComment level rest
  | level, '/' :: '*' :: rest => skipComment (level + 1) rest
  | level, _ :: rest => skipComment level rest

/-- The text behind the end of the line. -/
def skipLine : List Char → List Char
  | [] => []
  | c :: rest => (dropNewline? (c :: rest)).getD (skipLine rest)

/-- Words that would be mistaken for keywords. -/
def reserved : List String :=
  ["true", "false", "null", "inf", "-inf", "nan"]

/-- Whether a bare word begins as a number does, or nearly does: with a digit behind an optional sign and
an optional point. -/
def looksNumeric (cs : List Char) : Bool :=
  let cs := match cs with
    | '+' :: rest | '-' :: rest => rest
    | _ => cs
  match cs with
  | '.' :: c :: _ => c.isDigit
  | c :: _ => c.isDigit
  | [] => false

/-- The token of a bare word. -/
def ofWord? (cs : List Char) : Option Token :=
  if looksNumeric cs then (Value.number? cs).map .value
  else if reserved.contains (String.ofList cs) then none
  else some (.word (String.ofList cs))

/-- The token after a number sign: a keyword, or a raw string. -/
def afterSign? (cs : List Char) : Option (Token × List Char) :=
  let signs := (cs.takeWhile (· == '#')).length
  match cs.drop signs with
  | '"' :: rest => (raw? (signs + 1) rest).map fun (s, rest) => (.word s, rest)
  | _ => do
    let v ← Value.keywords.lookup (String.ofList (cs.takeWhile isWordChar))
    return (.value v, cs.dropWhile isWordChar)

/-- The first token of a text, and the rest. -/
def next? (c : Char) (cs : List Char) : Option (Token × List Char) :=
  match c, cs with
  | '/', '/' :: rest => some (.newline, skipLine rest)
  | '/', '*' :: rest => (skipComment 0 rest).map fun rest => (.space, rest)
  | '/', '-' :: rest => some (.slashdash, rest)
  | '\\', _ => some (.continuation, cs)
  | ';', _ => some (.semicolon, cs)
  | '\x7b', _ => some (.openBlock, cs)
  | '\x7d', _ => some (.closeBlock, cs)
  | '(', _ => some (.openType, cs)
  | ')', _ => some (.closeType, cs)
  | '=', _ => some (.equals, cs)
  | '"', _ => (quoted? cs).map fun (s, rest) => (.word s, rest)
  | '#', _ => afterSign? cs
  | _, _ =>
    if isSpace c then some (.space, cs.dropWhile isSpace)
    else if isNewline c then (dropNewline? (c :: cs)).map fun rest => (.newline, rest)
    else if isWordChar c then
      (ofWord? (c :: cs.takeWhile isWordChar)).map fun t => (t, cs.dropWhile isWordChar)
    else none

theorem length_le_of_skipComment {level : Nat} {cs rest : List Char}
    (h : skipComment level cs = some rest) : rest.length ≤ cs.length := by
  fun_induction skipComment level cs with
  | case1 => cases h
  | case2 cs =>
    cases h
    simp only [List.length_cons]
    omega
  | case3 cs level ih | case4 level cs ih =>
    have := ih h
    simp only [List.length_cons]
    omega
  | case5 level c cs _ _ ih =>
    have := ih h
    simp only [List.length_cons]
    omega

theorem length_skipLine_le (cs : List Char) : (skipLine cs).length ≤ cs.length := by
  induction cs with
  | nil => simp [skipLine]
  | cons c cs ih =>
    unfold skipLine
    cases h : dropNewline? (c :: cs) with
    | none =>
      simp only [Option.getD_none, List.length_cons]
      omega
    | some rest => exact Nat.le_of_lt (length_lt_of_dropNewline? h)

theorem length_dropWhile_le (p : Char → Bool) (cs : List Char) :
    (cs.dropWhile p).length ≤ cs.length :=
  (List.dropWhile_sublist p).length_le

theorem length_le_of_afterSign? {cs rest : List Char} {t : Token}
    (h : afterSign? cs = some (t, rest)) : rest.length ≤ cs.length := by
  unfold afterSign? at h
  simp only at h
  split at h
  · rename_i tail hd
    simp only [Option.map_eq_some_iff, Prod.mk.injEq] at h
    obtain ⟨⟨s, r⟩, hr, _, rfl⟩ := h
    have h₁ : r.length ≤ tail.length := length_le_of_raw? hr
    have h₂ := congrArg List.length hd
    simp only [List.length_drop, List.length_cons] at h₂
    simp only
    omega
  · simp only [Option.bind_eq_bind, Option.bind_eq_some_iff] at h
    obtain ⟨v, _, h⟩ := h
    cases h
    exact length_dropWhile_le _ _

/-- A token takes at least one character. -/
theorem length_le_of_next? {c : Char} {cs rest : List Char} {t : Token}
    (h : next? c cs = some (t, rest)) : rest.length ≤ cs.length := by
  unfold next? at h
  split at h
  · cases h
    exact Nat.le_trans (length_skipLine_le _) (by simp)
  · simp only [Option.map_eq_some_iff, Prod.mk.injEq] at h
    obtain ⟨r, hr, _, rfl⟩ := h
    exact Nat.le_trans (length_le_of_skipComment hr) (by simp)
  · cases h
    simp
  all_goals try (cases h; exact Nat.le_refl _)
  · simp only [Option.map_eq_some_iff, Prod.mk.injEq] at h
    obtain ⟨⟨s, r⟩, hr, _, rfl⟩ := h
    exact length_le_of_quoted? hr
  · exact length_le_of_afterSign? h
  · split at h
    · cases h
      exact length_dropWhile_le _ _
    · split at h
      · simp only [Option.map_eq_some_iff, Prod.mk.injEq] at h
        obtain ⟨r, hr, _, rfl⟩ := h
        exact Nat.lt_succ_iff.mp (length_lt_of_dropNewline? hr)
      · split at h
        · simp only [Option.map_eq_some_iff, Prod.mk.injEq] at h
          obtain ⟨_, _, _, rfl⟩ := h
          exact length_dropWhile_le _ _
        · cases h

/-- Cuts a text into tokens. -/
def scan? : List Char → Option (List Token)
  | [] => some []
  | c :: cs =>
    match h : next? c cs with
    | none => none
    | some (t, rest) =>
      have := length_le_of_next? h
      (scan? rest).map (t :: ·)
termination_by cs => cs.length

/-- A backslash, spaces and a line end are one space.  The flag tells that a backslash is waiting for
its line end, which may also be the end of the text. -/
def joinLines? : Bool → List Token → Option (List Token)
  | false, [] => some []
  | true, [] => some [.space]
  | false, .continuation :: rest => joinLines? true rest
  | false, t :: rest => (joinLines? false rest).map (t :: ·)
  | true, .space :: rest => joinLines? true rest
  | true, .newline :: rest => (joinLines? false rest).map (.space :: ·)
  | true, _ :: _ => none

/-- Takes away spaces and line ends behind a slashdash.  The flag tells that one stands right before. -/
def attach : Bool → List Token → List Token
  | _, [] => []
  | true, .space :: rest => attach true rest
  | true, .newline :: rest => attach true rest
  | _, .slashdash :: rest => .slashdash :: attach true rest
  | _, t :: rest => t :: attach false rest

end Token

/-- The tokens of a document. -/
def tokens? (cs : List Char) : Option (List Token) := do
  let cs := if cs.head? = some '\ufeff' then cs.tail else cs
  if cs.any isForbidden then none
  else do
    let ts ← Token.scan? cs
    let ts ← Token.joinLines? false ts
    return Token.attach false ts

end BuildPlan.Kdl
