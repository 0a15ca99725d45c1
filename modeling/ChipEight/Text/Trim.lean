/-
Cutting a text: trimming blanks at its ends, splitting off its first word, and splitting it at
commas.

Main statement: `length_trim_le`, trimming does not make a text longer.
-/
import ChipEight.Text.Blank

namespace ChipEight.Text

/-- The text without the blanks at its start. -/
def trimStart (s : List Char) : List Char :=
  s.dropWhile isBlank

/-- The text without the blanks at its end. -/
def trimEnd (s : List Char) : List Char :=
  (s.reverse.dropWhile isBlank).reverse

/-- The text without the blanks at its ends. -/
def trim (s : List Char) : List Char :=
  trimEnd (trimStart s)

/-- The first word of a text and what follows it, from the next character that is not blank. -/
def firstWord (s : List Char) : List Char × List Char :=
  let s := trimStart s
  (s.takeWhile (!isBlank ·), trimStart (s.dropWhile (!isBlank ·)))

/-- The items of a list separated by commas: trimmed, the empty ones left out. -/
def items (s : List Char) : List (List Char) :=
  ((s.splitOn ',').map trim).filter (· ≠ [])

/-- Whether `s` starts with `p`, which is in small letters, capitals of the basic alphabet
counting as small. -/
def startsWithFold (p s : List Char) : Bool :=
  (s.take p.length).map Char.toLower == p

@[simp] theorem trimStart_nil : trimStart [] = [] := rfl

@[simp] theorem trimEnd_nil : trimEnd [] = [] := rfl

theorem length_trimStart_le (s : List Char) : (trimStart s).length ≤ s.length :=
  (List.dropWhile_sublist _).length_le

theorem length_trimEnd_le (s : List Char) : (trimEnd s).length ≤ s.length := by
  simpa [trimEnd] using (List.dropWhile_sublist (p := isBlank) (l := s.reverse)).length_le

theorem length_trim_le (s : List Char) : (trim s).length ≤ s.length :=
  Nat.le_trans (length_trimEnd_le _) (length_trimStart_le s)

end ChipEight.Text
