/-
Blank characters: the characters that are trimmed from the ends of a text and that separate words.
-/
import ChipEight.Text.CharClass

namespace ChipEight.Text

/-- The blanks: the white space of Unicode together with the four separators
U+001C to U+001F. -/
def blank : CharClass where
  bounds := [
    9, 14, 28, 33, 133, 134, 160, 161, 5760, 5761, 8192, 8203, 8232, 8234, 8239, 8240, 8287,
    8288, 12288, 12289]

/-- Whether the character is blank. -/
def isBlank (c : Char) : Bool :=
  blank.contains c

end ChipEight.Text
