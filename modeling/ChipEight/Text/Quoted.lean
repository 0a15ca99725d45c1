/-
Quoted texts, as they stand in messages.

A text stands between apostrophes, or between quotation marks if it holds an apostrophe and no
quotation mark.  The mark in use and the backslash are escaped, and so is every character that
is not printable.
-/
import ChipEight.Text.Printable

namespace ChipEight.Text

/-- The mark that encloses a text. -/
def quoteMark (s : List Char) : Char :=
  if s.contains '\'' && !s.contains '"' then '"' else '\''

/-- `n` in hexadecimal with `width` digits. -/
def escapeDigits (width n : Nat) : List Char :=
  let digits := Nat.toDigits 16 n
  List.replicate (width - digits.length) '0' ++ digits

/-- A character as it stands between two of the given marks. -/
def quoteChar (mark c : Char) : List Char :=
  if c = mark || c = '\\' then ['\\', c]
  else if c = '\n' then ['\\', 'n']
  else if c = '\r' then ['\\', 'r']
  else if c = '\t' then ['\\', 't']
  else if isPrintable c then [c]
  else if c.toNat < 0x100 then ['\\', 'x'] ++ escapeDigits 2 c.toNat
  else if c.toNat < 0x10000 then ['\\', 'u'] ++ escapeDigits 4 c.toNat
  else ['\\', 'U'] ++ escapeDigits 8 c.toNat

/-- The text between marks, with escapes. -/
def quote (s : List Char) : List Char :=
  let mark := quoteMark s
  mark :: s.flatMap (quoteChar mark) ++ [mark]

/-- The text between marks, as a string of a message. -/
def quoted (s : List Char) : String :=
  String.ofList (quote s)

end ChipEight.Text
