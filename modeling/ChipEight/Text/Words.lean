/-
Words of a command line, with quoting.

Blanks separate words.  Between apostrophes every character stands for itself; between
quotation marks a backslash escapes a quotation mark or a backslash; elsewhere a backslash
escapes the next character.  A pair of marks makes a word even if nothing stands between them.
-/
namespace ChipEight.Text

/-- Why a line has no words. -/
inductive WordsError
  /-- A quotation is not closed. -/
  | openQuotation
  /-- The line ends after a backslash. -/
  | openEscape
  deriving DecidableEq, Repr

/-- The wording of the error. -/
def WordsError.message : WordsError → String
  | .openQuotation => "No closing quotation"
  | .openEscape => "No escaped character"

namespace Words

/-- Whether the character separates words. -/
def isGap (c : Char) : Bool :=
  c == ' ' || c == '\t' || c == '\r' || c == '\n'

/-- What the next character belongs to. -/
inductive Mode
  /-- Nothing: the gap between words. -/
  | gap
  /-- A word, outside any quotation. -/
  | word
  /-- A quotation within a word. -/
  | quotation (mark : Char)
  /-- An escape: the character after a backslash in a word. -/
  | escape
  /-- An escape within a quotation. -/
  | quotedEscape (mark : Char)

/-- Read on: `word` holds the word under way, last character first. -/
def scan : Mode → List Char → List Char → Except WordsError (List (List Char))
  | .gap, _, [] => .ok []
  | .word, word, [] => .ok [word.reverse]
  | .quotation _, _, [] => .error .openQuotation
  | .escape, _, [] => .error .openEscape
  | .quotedEscape _, _, [] => .error .openEscape
  | .gap, word, c :: s =>
    if isGap c then scan .gap word s
    else if c = '\\' then scan .escape word s
    else if c = '\'' || c = '"' then scan (.quotation c) word s
    else scan .word [c] s
  | .word, word, c :: s =>
    if isGap c then (scan .gap [] s).map (word.reverse :: ·)
    else if c = '\\' then scan .escape word s
    else if c = '\'' || c = '"' then scan (.quotation c) word s
    else scan .word (c :: word) s
  | .quotation mark, word, c :: s =>
    if c = mark then scan .word word s
    else if c = '\\' && mark = '"' then scan (.quotedEscape mark) word s
    else scan (.quotation mark) (c :: word) s
  | .escape, word, c :: s => scan .word (c :: word) s
  | .quotedEscape mark, word, c :: s =>
    if c = '\\' || c = mark then scan (.quotation mark) (c :: word) s
    -- Before any other character a backslash stands for itself.
    else scan (.quotation mark) (c :: '\\' :: word) s

/-- The words of a line. -/
def split (s : List Char) : Except WordsError (List (List Char)) :=
  scan .gap [] s

end Words

end ChipEight.Text
