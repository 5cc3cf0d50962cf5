/-!
# Blank characters, words and lines

`isBlank` is the White_Space property.  `trim`, `words` and `lines` cut a text at blanks, at runs of
blanks and at line feeds; each is defined on lists of characters (`Chars`) and lifted to strings (`Text`).
-/

namespace BuildPlan

namespace Chars

/-- The 25 characters with the White_Space property. -/
def isBlank (c : Char) : Bool :=
  ('\t' ≤ c && c ≤ '\r') || c == ' ' || c == '\u0085' || c == '\u00a0' || c == '\u1680' ||
    ('\u2000' ≤ c && c ≤ '\u200a') || c == '\u2028' || c == '\u2029' || c == '\u202f' ||
    c == '\u205f' || c == '\u3000'

/-- The text without the blanks at both ends. -/
def trim (cs : List Char) : List Char :=
  ((cs.dropWhile isBlank).reverse.dropWhile isBlank).reverse

/-- The maximal runs of characters that are not blank, in order. -/
def words (cs : List Char) : List (List Char) :=
  (cs.splitOnP isBlank).filter fun w => !w.isEmpty

/-- A carriage return at the end of a line belongs to the line end. -/
def dropReturn (line : List Char) : List Char :=
  if line.getLast? = some '\r' then line.dropLast else line

/-- Ends every piece but the last as a line; an empty last piece is no line. -/
def endLines : List (List Char) → List (List Char)
  | [] => []
  | [last] => if last.isEmpty then [] else [last]
  | line :: rest => dropReturn line :: endLines rest

/-- The lines of a text: a line feed ends a line and takes one carriage return before it along. -/
def lines (cs : List Char) : List (List Char) :=
  endLines (cs.splitOnP (· == '\n'))

/-- Letters `A` to `Z` become small.  Every key that is looked up this way is ASCII, and no letter
outside ASCII has a small form among the letters of these keys. -/
def lower (cs : List Char) : List Char :=
  cs.map Char.toLower

/-- Whether `piece` occurs in the text as a run of adjacent characters. -/
def hasInfix (piece : List Char) : List Char → Bool
  | [] => piece.isEmpty
  | c :: cs => piece.isPrefixOf (c :: cs) || hasInfix piece cs

end Chars

namespace Text

/-- The text without the blanks at both ends. -/
def trim (s : String) : String :=
  String.ofList (Chars.trim s.toList)

/-- The words of a text. -/
def words (s : String) : List String :=
  (Chars.words s.toList).map String.ofList

/-- The lines of a text. -/
def lines (s : String) : List String :=
  (Chars.lines s.toList).map String.ofList

/-- Nothing but blanks. -/
def isBlank (s : String) : Bool :=
  s.toList.all Chars.isBlank

/-- The trimmed text in small letters, as keywords are compared. -/
def keyword (s : String) : String :=
  String.ofList (Chars.lower (Chars.trim s.toList))

/-- The lines that are not blank, each trimmed. -/
def entries (s : String) : List String :=
  (lines s).map trim |>.filter fun line => !line.isEmpty

/-- Whether `piece` occurs in the text. -/
def contains (s piece : String) : Bool :=
  Chars.hasInfix piece.toList s.toList

/-- Whether the text begins with `start`. -/
def startsWith (s start : String) : Bool :=
  start.toList.isPrefixOf s.toList

end Text

end BuildPlan
