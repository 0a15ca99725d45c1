/-
Words and programs as assembly text.

A word that is no instruction is written as data.

Main definitions:
* `words`: the words of an image, one for every two bytes;
* `disassemble`: the lines that name them.
-/
import ChipEight.Instruction.Encoding
import ChipEight.Instruction.Form
import ChipEight.Memory.Basic

namespace ChipEight.Disassembly

/-- The text of data. -/
def dataText (word : Int) : List Char :=
  ['.', 'd', 'w', ' '] ++ Hex.marked 6 word

/-- The text of a word. -/
def wordText (word : Int) : List Char :=
  match Instruction.decode word with
  | .error _ => dataText word
  | .ok i =>
    match i.text with
    | .ok t => t
    | .error _ => dataText word

/-- The words of an image, each with its offset from the start; a last byte by itself is left
out. -/
def words (offset : Nat) : Image → List (Nat × Nat)
  | [] => []
  | [_] => []
  | a :: b :: s => (offset, a.toNat * 256 + b.toNat) :: words (offset + 2) s

/-- The line of a listing for a word at an address. -/
def line (address : Int) (word : Nat) : List Char :=
  Hex.capital 4 address ++ [' ', ' '] ++ Hex.capital 4 word ++ [' ', ' '] ++ wordText word

/-- The lines of an image that stands from an address on. -/
def disassemble (image : Image) (base : Int) : List (List Char) :=
  (words 0 image).map fun (offset, word) => line (base + offset) word

end ChipEight.Disassembly
