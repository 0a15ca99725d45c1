/-
The written form of instructions: a mnemonic and what stands in the place of each operand.

The same forms serve to write instructions and to read them.  A jump with offset is written
with the register `V0` whatever register it adds, because its register follows from its address.
-/
import ChipEight.Instruction.Basic
import ChipEight.Numeral.Hex

namespace ChipEight

/-! ## Forms -/

/-- The words that stand for special operands. -/
inductive Keyword
  /-- The index register. -/
  | index
  /-- The memory at the index register. -/
  | block
  /-- The delay timer. -/
  | delay
  /-- The sound timer. -/
  | sound
  /-- A key press. -/
  | key
  /-- The small font. -/
  | font
  /-- The large font. -/
  | largeFont
  /-- The decimal digits. -/
  | decimal
  deriving DecidableEq, Repr

namespace Keyword

/-- The keyword as it is written. -/
def text : Keyword → List Char
  | index => ['I']
  | block => ['[', 'I', ']']
  | delay => ['D', 'T']
  | sound => ['S', 'T']
  | key => ['K']
  | font => ['F']
  | largeFont => ['H', 'F']
  | decimal => ['B']

/-- All keywords. -/
def all : List Keyword :=
  [index, block, delay, sound, key, font, largeFont, decimal]

/-- The keyword that is written so. -/
def ofText? (s : List Char) : Option Keyword :=
  all.find? fun k => k.text == s

end Keyword

/-- What stands in the place of an operand. -/
inductive Slot
  /-- The register of a field. -/
  | register (field : Field)
  /-- The register that a jump with offset adds, written `V0`. -/
  | offset
  /-- A keyword. -/
  | keyword (keyword : Keyword)
  /-- The number in a field. -/
  | number (field : Field)
  deriving DecidableEq, Repr

/-- The written form of an opcode. -/
structure Form where
  /-- The mnemonic, in small letters. -/
  mnemonic : List Char
  /-- What stands in the place of the operands. -/
  slots : List Slot
  deriving DecidableEq, Repr

/-- The form in which the opcode is written. -/
def Opcode.form : Opcode → Form
  | .sys => ⟨['s', 'y', 's'], [.number .nnn]⟩
  | .cls => ⟨['c', 'l', 's'], []⟩
  | .ret => ⟨['r', 'e', 't'], []⟩
  | .jp => ⟨['j', 'p'], [.number .nnn]⟩
  | .call => ⟨['c', 'a', 'l', 'l'], [.number .nnn]⟩
  | .seByte => ⟨['s', 'e'], [.register .x, .number .kk]⟩
  | .sneByte => ⟨['s', 'n', 'e'], [.register .x, .number .kk]⟩
  | .seReg => ⟨['s', 'e'], [.register .x, .register .y]⟩
  | .sneReg => ⟨['s', 'n', 'e'], [.register .x, .register .y]⟩
  | .ldByte => ⟨['l', 'd'], [.register .x, .number .kk]⟩
  | .addByte => ⟨['a', 'd', 'd'], [.register .x, .number .kk]⟩
  | .ldReg => ⟨['l', 'd'], [.register .x, .register .y]⟩
  | .or => ⟨['o', 'r'], [.register .x, .register .y]⟩
  | .and => ⟨['a', 'n', 'd'], [.register .x, .register .y]⟩
  | .xor => ⟨['x', 'o', 'r'], [.register .x, .register .y]⟩
  | .addReg => ⟨['a', 'd', 'd'], [.register .x, .register .y]⟩
  | .sub => ⟨['s', 'u', 'b'], [.register .x, .register .y]⟩
  | .shr => ⟨['s', 'h', 'r'], [.register .x, .register .y]⟩
  | .subn => ⟨['s', 'u', 'b', 'n'], [.register .x, .register .y]⟩
  | .shl => ⟨['s', 'h', 'l'], [.register .x, .register .y]⟩
  | .ldIndex => ⟨['l', 'd'], [.keyword .index, .number .nnn]⟩
  | .jpOffset => ⟨['j', 'p'], [.offset, .number .nnn]⟩
  | .rnd => ⟨['r', 'n', 'd'], [.register .x, .number .kk]⟩
  | .drw => ⟨['d', 'r', 'w'], [.register .x, .register .y, .number .n]⟩
  | .skp => ⟨['s', 'k', 'p'], [.register .x]⟩
  | .sknp => ⟨['s', 'k', 'n', 'p'], [.register .x]⟩
  | .ldFromDelay => ⟨['l', 'd'], [.register .x, .keyword .delay]⟩
  | .ldKey => ⟨['l', 'd'], [.register .x, .keyword .key]⟩
  | .ldDelay => ⟨['l', 'd'], [.keyword .delay, .register .x]⟩
  | .ldSound => ⟨['l', 'd'], [.keyword .sound, .register .x]⟩
  | .addIndex => ⟨['a', 'd', 'd'], [.keyword .index, .register .x]⟩
  | .ldFont => ⟨['l', 'd'], [.keyword .font, .register .x]⟩
  | .ldDecimal => ⟨['l', 'd'], [.keyword .decimal, .register .x]⟩
  | .store => ⟨['l', 'd'], [.keyword .block, .register .x]⟩
  | .fetch => ⟨['l', 'd'], [.register .x, .keyword .block]⟩
  | .scd => ⟨['s', 'c', 'd'], [.number .n]⟩
  | .scr => ⟨['s', 'c', 'r'], []⟩
  | .scl => ⟨['s', 'c', 'l'], []⟩
  | .exit => ⟨['e', 'x', 'i', 't'], []⟩
  | .low => ⟨['l', 'o', 'w'], []⟩
  | .high => ⟨['h', 'i', 'g', 'h'], []⟩
  | .ldLargeFont => ⟨['l', 'd'], [.keyword .largeFont, .register .x]⟩
  | .save => ⟨['s', 'a', 'v', 'e'], [.register .x]⟩
  | .restore => ⟨['l', 'o', 'a', 'd'], [.register .x]⟩

/-! ## Writing -/

/-- The number of a field as it is written: addresses and bytes in hexadecimal, small numbers in
decimal. -/
def Field.text (f : Field) (v : Int) : List Char :=
  match f with
  | .x | .y => Hex.capital 0 v
  | .n => (toString v).toList
  | .kk => Hex.marked 4 v
  | .nnn => Hex.marked 5 v

namespace Instruction

/-- The operand that stands in a slot, or the field that the instruction lacks. -/
def slotText (i : Instruction) : Slot → Except Field (List Char)
  | .register f =>
    match i.operand? f with
    | some v => .ok ('V' :: f.text v)
    | none => .error f
  | .offset => .ok ['V', '0']
  | .keyword k => .ok k.text
  | .number f =>
    match i.operand? f with
    | some v => .ok (f.text v)
    | none => .error f

/-- The operands that stand in the slots, or the first field that the instruction lacks. -/
def slotTexts (i : Instruction) : List Slot → Except Field (List (List Char))
  | [] => .ok []
  | s :: ss =>
    match i.slotText s with
    | .error f => .error f
    | .ok t =>
      match i.slotTexts ss with
      | .error f => .error f
      | .ok ts => .ok (t :: ts)

/-- The instruction as it is written, such as `DRW V0, V1, 5`, or the first field of the text
that the instruction lacks. -/
def text (i : Instruction) : Except Field (List Char) :=
  let form := i.opcode.form
  let mnemonic := form.mnemonic.map Char.toUpper
  match i.slotTexts form.slots with
  | .error f => .error f
  | .ok [] => .ok mnemonic
  | .ok ts => .ok (mnemonic ++ ' ' :: [',', ' '].intercalate ts)

end Instruction

end ChipEight
