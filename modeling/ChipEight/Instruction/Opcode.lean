/-
The closed set of opcodes, and the operand fields that each of them carries.

A word has four digits of four bits.  An operand field is a run of digits of the word: `x`, `y`
and `n` are the second, third and fourth digit, `kk` the last two and `nnn` the last three.

Main statements:
* `Field.extract_lt`: what a field holds is below its bound;
* `Field.admits_iff`: which numbers a field can hold.
-/
namespace ChipEight

/-! ## Operand fields -/

/-- The places of a word where an operand is stored. -/
inductive Field
  /-- The second digit, a register. -/
  | x
  /-- The third digit, a register. -/
  | y
  /-- The fourth digit, a small number. -/
  | n
  /-- The last two digits, a byte. -/
  | kk
  /-- The last three digits, an address. -/
  | nnn
  deriving DecidableEq, Repr

namespace Field

/-- The name of the field in messages. -/
def name : Field → String
  | x => "x"
  | y => "y"
  | n => "n"
  | kk => "kk"
  | nnn => "nnn"

/-- What one unit of the operand adds to the word. -/
def weight : Field → Nat
  | x => 256
  | y => 16
  | n => 1
  | kk => 1
  | nnn => 1

/-- The number of values that the field can hold. -/
def bound : Field → Nat
  | x => 16
  | y => 16
  | n => 16
  | kk => 256
  | nnn => 4096

/-- What the field of a word holds. -/
def extract (f : Field) (word : Nat) : Nat :=
  word / f.weight % f.bound

/-- Whether the field can hold the number. -/
def admits (f : Field) (v : Int) : Bool :=
  0 ≤ v && v < f.bound

theorem bound_pos (f : Field) : 0 < f.bound := by
  cases f <;> decide

theorem extract_lt (f : Field) (word : Nat) : f.extract word < f.bound :=
  Nat.mod_lt _ f.bound_pos

theorem admits_iff {f : Field} {v : Int} : f.admits v ↔ 0 ≤ v ∧ v < f.bound := by
  simp [admits]

end Field

/-! ## Opcodes -/

/-- The operations of the machine. -/
inductive Opcode
  /-- A call of a routine of the host, which does nothing. -/
  | sys
  /-- Clear the screen. -/
  | cls
  /-- Return from a subroutine. -/
  | ret
  /-- Jump. -/
  | jp
  /-- Call a subroutine. -/
  | call
  /-- Skip if a register equals a byte. -/
  | seByte
  /-- Skip if a register differs from a byte. -/
  | sneByte
  /-- Skip if two registers are equal. -/
  | seReg
  /-- Skip if two registers differ. -/
  | sneReg
  /-- Put a byte into a register. -/
  | ldByte
  /-- Add a byte to a register. -/
  | addByte
  /-- Copy a register. -/
  | ldReg
  /-- Bitwise disjunction. -/
  | or
  /-- Bitwise conjunction. -/
  | and
  /-- Bitwise exclusive disjunction. -/
  | xor
  /-- Add with carry. -/
  | addReg
  /-- Subtract. -/
  | sub
  /-- Shift right. -/
  | shr
  /-- Subtract the other way round. -/
  | subn
  /-- Shift left. -/
  | shl
  /-- Put an address into the index register. -/
  | ldIndex
  /-- Jump to an address plus a register. -/
  | jpOffset
  /-- Put a random number into a register. -/
  | rnd
  /-- Draw a sprite. -/
  | drw
  /-- Skip if a key is held. -/
  | skp
  /-- Skip if a key is not held. -/
  | sknp
  /-- Read the delay timer. -/
  | ldFromDelay
  /-- Wait for a key. -/
  | ldKey
  /-- Set the delay timer. -/
  | ldDelay
  /-- Set the sound timer. -/
  | ldSound
  /-- Add a register to the index register. -/
  | addIndex
  /-- Point at a small digit of the font. -/
  | ldFont
  /-- Store the three decimal digits of a register. -/
  | ldDecimal
  /-- Store a block of registers. -/
  | store
  /-- Load a block of registers. -/
  | fetch
  /-- Scroll down. -/
  | scd
  /-- Scroll right. -/
  | scr
  /-- Scroll left. -/
  | scl
  /-- Stop the machine. -/
  | exit
  /-- Switch to the low resolution. -/
  | low
  /-- Switch to the high resolution. -/
  | high
  /-- Point at a large digit of the font. -/
  | ldLargeFont
  /-- Save registers into the slots outside memory. -/
  | save
  /-- Restore registers from the slots outside memory. -/
  | restore
  deriving DecidableEq, Repr

namespace Opcode

/-- All opcodes. -/
def all : List Opcode :=
  [sys, cls, ret, jp, call, seByte, sneByte, seReg, sneReg, ldByte, addByte, ldReg, or, and, xor,
    addReg, sub, shr, subn, shl, ldIndex, jpOffset, rnd, drw, skp, sknp, ldFromDelay, ldKey,
    ldDelay, ldSound, addIndex, ldFont, ldDecimal, store, fetch, scd, scr, scl, exit, low, high,
    ldLargeFont, save, restore]

/-- The name of the opcode, which tells its operands. -/
def name : Opcode → String
  | sys => "SYS_addr"
  | cls => "CLS"
  | ret => "RET"
  | jp => "JP_addr"
  | call => "CALL_addr"
  | seByte => "SE_Vx_kk"
  | sneByte => "SNE_Vx_kk"
  | seReg => "SE_Vx_Vy"
  | sneReg => "SNE_Vx_Vy"
  | ldByte => "LD_Vx_kk"
  | addByte => "ADD_Vx_kk"
  | ldReg => "LD_Vx_Vy"
  | or => "OR_Vx_Vy"
  | and => "AND_Vx_Vy"
  | xor => "XOR_Vx_Vy"
  | addReg => "ADD_Vx_Vy"
  | sub => "SUB_Vx_Vy"
  | shr => "SHR_Vx_Vy"
  | subn => "SUBN_Vx_Vy"
  | shl => "SHL_Vx_Vy"
  | ldIndex => "LD_I_addr"
  | jpOffset => "JP_Vx_addr"
  | rnd => "RND_Vx_kk"
  | drw => "DRW_Vx_Vy_n"
  | skp => "SKP_Vx"
  | sknp => "SKNP_Vx"
  | ldFromDelay => "LD_Vx_DT"
  | ldKey => "LD_Vx_K"
  | ldDelay => "LD_DT_Vx"
  | ldSound => "LD_ST_Vx"
  | addIndex => "ADD_I_Vx"
  | ldFont => "LD_F_Vx"
  | ldDecimal => "LD_B_Vx"
  | store => "LD_iI_Vx"
  | fetch => "LD_Vx_iI"
  | scd => "SCD_n"
  | scr => "SCR"
  | scl => "SCL"
  | exit => "EXIT"
  | low => "LORES"
  | high => "HIRES"
  | ldLargeFont => "LD_HF_Vx"
  | save => "SAVE_Vx"
  | restore => "LOAD_Vx"

/-- The operand fields of the opcode, in the order of its operands. -/
def fields : Opcode → List Field
  | sys | jp | call | ldIndex => [.nnn]
  | cls | ret | scr | scl | exit | low | high => []
  | seByte | sneByte | ldByte | addByte | rnd => [.x, .kk]
  | seReg | sneReg | ldReg | or | and | xor | addReg | sub | shr | subn | shl => [.x, .y]
  | jpOffset => [.x, .nnn]
  | drw => [.x, .y, .n]
  | skp | sknp | ldFromDelay | ldKey | ldDelay | ldSound | addIndex | ldFont | ldDecimal
  | store | fetch | ldLargeFont | save | restore => [.x]
  | scd => [.n]

/-- The opcode of the given name. -/
def ofName? (name : String) : Option Opcode :=
  all.find? fun o => o.name == name

end Opcode

end ChipEight
