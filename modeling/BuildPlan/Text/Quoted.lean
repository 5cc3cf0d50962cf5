import BuildPlan.Text.Extender
import BuildPlan.Text.Printable

/-!
# Quoted texts

A quoted text stands between double quotes.  The quote, the backslash and four controls have a short
escape, and every other character that does not show, or that would attach to the one before it, is
written as its code point in hexadecimal digits.
-/

namespace BuildPlan

namespace Chars

/-- A code point between braces, in small hexadecimal digits without leading zeros. -/
def escapeCode (c : Char) : List Char :=
  ['\\', 'u', '\x7b'] ++ Nat.toDigits 16 c.toNat ++ ['\x7d']

/-- One character as it stands in a quoted text. -/
def quoteChar (c : Char) : List Char :=
  if c = '"' then ['\\', '"']
  else if c = '\\' then ['\\', '\\']
  else if c = '\n' then ['\\', 'n']
  else if c = '\r' then ['\\', 'r']
  else if c = '\t' then ['\\', 't']
  else if c = '\x00' then ['\\', '0']
  else if isExtender c || !isPrintable c then escapeCode c
  else [c]

end Chars

namespace Text

/-- The text between double quotes. -/
def quoted (s : String) : String :=
  String.ofList ('"' :: s.toList.flatMap Chars.quoteChar ++ ['"'])

/-- Quoted texts between brackets. -/
def quotedList (ss : List String) : String :=
  "[" ++ String.intercalate ", " (ss.map quoted) ++ "]"

end Text

end BuildPlan
