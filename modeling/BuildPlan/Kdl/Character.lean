/-!
# Characters of documents

The classes of characters of the document language: spaces inside a line, line ends, characters of
bare words, and characters that must not appear at all.
-/

namespace BuildPlan.Kdl

/-- A blank inside a line. -/
def isSpace (c : Char) : Bool :=
  c == '\t' || c == ' ' || c == '\u00a0' || c == '\u1680' || ('\u2000' ≤ c && c ≤ '\u200a') ||
    c == '\u202f' || c == '\u205f' || c == '\u3000'

/-- A character that ends a line.  A carriage return and a line feed after it are one line end. -/
def isNewline (c : Char) : Bool :=
  ('\n' ≤ c && c ≤ '\r') || c == '\u0085' || c == '\u2028' || c == '\u2029'

/-- A character that must not appear in a document: most controls, marks of writing direction, and the
byte order mark. -/
def isForbidden (c : Char) : Bool :=
  c ≤ '\x08' || ('\x0e' ≤ c && c ≤ '\x1f') || c == '\x7f' || c == '\u200e' || c == '\u200f' ||
    ('\u202a' ≤ c && c ≤ '\u202e') || ('\u2066' ≤ c && c ≤ '\u2069') || c == '\ufeff'

/-- A character with a meaning of its own, which ends a bare word. -/
def isDelimiter (c : Char) : Bool :=
  ['\\', '/', '(', ')', '\x7b', '\x7d', ';', '[', ']', '"', '#', '='].contains c

/-- A character of a bare word. -/
def isWordChar (c : Char) : Bool :=
  !isSpace c && !isNewline c && !isDelimiter c && !isForbidden c

/-- The text behind one line end, if one stands in front. -/
def dropNewline? : List Char → Option (List Char)
  | '\r' :: '\n' :: rest => some rest
  | c :: rest => if isNewline c then some rest else none
  | [] => none

/-- The value of a hexadecimal digit. -/
def hexDigit? (c : Char) : Option Nat :=
  if '0' ≤ c ∧ c ≤ '9' then some (c.toNat - '0'.toNat)
  else if 'a' ≤ c ∧ c ≤ 'f' then some (c.toNat - 'a'.toNat + 10)
  else if 'A' ≤ c ∧ c ≤ 'F' then some (c.toNat - 'A'.toNat + 10)
  else none

end BuildPlan.Kdl
