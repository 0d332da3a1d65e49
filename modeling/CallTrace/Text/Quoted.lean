import CallTrace.Text.Digits
import CallTrace.Unicode.Printable

/-!
# Quoted texts

A quoted text stands between single quotes, or between double quotes when it
holds a single quote and no double one.  The quote in use and the backslash are
escaped by a backslash, the three common controls by a letter, and every other
character that is not printable by its number in lower-case hexadecimal.

So a quoted text stands on one line, whatever the text was.
-/

namespace CallTrace.Text

/-- The escape of a character by its number, in the shortest of the three widths that holds it. -/
def numberEscape (n : Nat) : List Char :=
  if n < 0x100 then '\\' :: 'x' :: hexPadded 2 n
  else if n < 0x10000 then '\\' :: 'u' :: hexPadded 4 n
  else '\\' :: 'U' :: hexPadded 8 n

/-- How a character is written between the given quotes. -/
def quoteChar (mark c : Char) : List Char :=
  if c = mark ∨ c = '\\' then ['\\', c]
  else if c = '\t' then ['\\', 't']
  else if c = '\n' then ['\\', 'n']
  else if c = '\r' then ['\\', 'r']
  else if Unicode.isPrintable c then [c]
  else numberEscape c.toNat

/-- The quote mark that a text is written with. -/
def quoteMark (text : List Char) : Char :=
  if text.contains '\'' && !text.contains '"' then '"' else '\''

/-- The text in quotes, with the escapes that it needs. -/
def quote (text : List Char) : List Char :=
  let mark := quoteMark text
  mark :: (text.flatMap (quoteChar mark) ++ [mark])

end CallTrace.Text
