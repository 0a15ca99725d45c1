/-
The lines of assembly text: comments, labels and statements.

A line is cut at its first semicolon.  What is left may begin with labels, and after them stands
a statement or nothing.

Main statements:
* `length_splitLabel?_lt`: taking a label off a line makes it shorter;
* `peelLabels_of_splitLabel?_eq_none`: a line without a label is left alone.
-/
import ChipEight.Text.Trim
import ChipEight.Text.WordChar

namespace ChipEight.Assembly

/-! ## Comments and labels -/

/-- The line without its comment and the blanks at its ends. -/
def withoutComment (line : List Char) : List Char :=
  Text.trim (line.takeWhile (· ≠ ';'))

/-- Whether a label may begin with the character. -/
def isLabelStart (c : Char) : Bool :=
  c.isAlpha || c == '_'

/-- Whether the character may stand in a label after its beginning. -/
def isLabelChar (c : Char) : Bool :=
  Text.isWordChar c || c == '.'

/-- The label at the beginning of a line, and what follows it. -/
def splitLabel? : List Char → Option (List Char × List Char)
  | [] => none
  | c :: s =>
    if isLabelStart c then
      match s.dropWhile isLabelChar with
      | ':' :: rest => some (c :: s.takeWhile isLabelChar, Text.trim rest)
      | _ => none
    else none

theorem length_splitLabel?_lt {line name rest : List Char}
    (h : splitLabel? line = some (name, rest)) : rest.length < line.length := by
  unfold splitLabel? at h
  split at h
  · cases h
  · rename_i c s
    split at h
    · split at h
      · rename_i t ht
        cases h
        have h1 := Text.length_trim_le t
        have h2 := (List.dropWhile_sublist (p := isLabelChar) (l := s)).length_le
        rw [ht, List.length_cons] at h2
        rw [List.length_cons]
        omega
      · cases h
    · cases h

/-- The labels at the beginning of a line, and what follows them. -/
def peelLabels (line : List Char) : List (List Char) × List Char :=
  match _h : splitLabel? line with
  | none => ([], line)
  | some (name, rest) =>
    let (names, rest) := peelLabels rest
    (name :: names, rest)
  termination_by line.length
  decreasing_by exact length_splitLabel?_lt _h

theorem peelLabels_of_splitLabel?_eq_none {line : List Char} (h : splitLabel? line = none) :
    peelLabels line = ([], line) := by
  rw [peelLabels]
  split
  · rfl
  · simp_all

/-! ## Statements -/

/-- What a line asks for. -/
inductive Statement
  /-- Go on at an address. -/
  | origin (target : List Char)
  /-- Put bytes. -/
  | bytes (operands : List (List Char))
  /-- Put words. -/
  | words (operands : List (List Char))
  /-- Put an instruction. -/
  | instruction (text : List Char)
  deriving DecidableEq, Repr

namespace Statement

/-- The statement that is written in a line without labels and comments. -/
def ofText (text : List Char) : Statement :=
  if Text.startsWithFold ['.', 'o', 'r', 'g'] text then .origin (Text.trim (text.drop 4))
  else if Text.startsWithFold ['.', 'd', 'b'] text then .bytes (Text.items (text.drop 3))
  else if Text.startsWithFold ['.', 'd', 'w'] text then .words (Text.items (text.drop 3))
  else .instruction text

end Statement

end ChipEight.Assembly
