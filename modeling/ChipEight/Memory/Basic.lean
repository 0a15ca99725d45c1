/-
The memory: 4096 cells of a byte.

Every number is an address, since addresses wrap around at the end of the memory.  The fonts
stand at its start, programs are loaded at `0x200`.

Main statements:
* `read_write`: a cell holds what was written to it last;
* `read_writeBlock_of_ne`: writing a block leaves the other cells alone.
-/
import ChipEight.Memory.Font

namespace ChipEight

/-- The bytes of a program or a file. -/
abbrev Image := List UInt8

/-- The byte that is made from a number is its remainder. -/
theorem toNat_ofInt_eq_emod (v : Int) : ((UInt8.ofInt v).toNat : Int) = v % 256 := by
  rw [UInt8.ofInt, UInt8.toNat_ofNat']
  omega

/-- A byte is made from every number that leaves it as the remainder. -/
theorem ofInt_of_emod {v : Int} {b : UInt8} (h : v % 256 = b.toNat) : UInt8.ofInt v = b := by
  have hb := toNat_ofInt_eq_emod v
  rw [h] at hb
  exact UInt8.toNat_inj.1 (Int.ofNat_inj.1 hb)

/-- The memory of the machine. -/
structure Memory where
  /-- The cells. -/
  cells : Vector UInt8 4096
  deriving DecidableEq

namespace Memory

/-- The cell that an address names. -/
def cell (address : Int) : Fin 4096 :=
  ⟨(address % 4096).toNat, by omega⟩

/-- The byte at an address. -/
def read (m : Memory) (address : Int) : UInt8 :=
  m.cells[cell address]

/-- The word at an address, its high byte first. -/
def read16 (m : Memory) (address : Int) : Nat :=
  (m.read address).toNat * 256 + (m.read (address + 1)).toNat

/-- The memory after a byte is written to an address. -/
def write (m : Memory) (address : Int) (b : UInt8) : Memory :=
  { m with cells := m.cells.set (cell address) b }

/-- The memory after bytes are written from an address on. -/
def writeBlock (m : Memory) (address : Int) : List UInt8 → Memory
  | [] => m
  | b :: s => (m.write address b).writeBlock (address + 1) s

/-- The memory that holds the fonts and zeros. -/
def fresh : Memory :=
  (Memory.mk (Vector.replicate 4096 0)).writeBlock Font.smallBase Font.small
    |>.writeBlock Font.largeBase Font.large

/-- The cell at which a slice begins or ends: below zero cells are counted from the end, and no
slice goes beyond either end. -/
def bound (k : Int) : Nat :=
  min 4096 (if k < 0 then k + 4096 else k).toNat

/-- The cells from one place up to another. -/
def slice (m : Memory) (start stop : Int) : Image :=
  (m.cells.toList.take (bound stop)).drop (bound start)

/-! ## Programs -/

/-- Where programs are loaded. -/
def programStart : Nat := 0x200

/-- The most bytes that a program may have. -/
def programLimit : Nat := 4096 - programStart

/-- A program of so many bytes is too large. -/
structure ProgramTooLarge where
  /-- The size of the program. -/
  size : Nat
  deriving DecidableEq, Repr

/-- The wording of the error. -/
def ProgramTooLarge.message (e : ProgramTooLarge) : String :=
  s!"Program is {e.size} bytes, max is {programLimit}"

/-- The memory after a program is loaded. -/
def load (m : Memory) (program : Image) : Except ProgramTooLarge Memory :=
  if programLimit < program.length then .error ⟨program.length⟩
  else .ok (m.writeBlock programStart program)

/-! ## Reading what was written -/

theorem cell_eq_cell_iff {a b : Int} : cell a = cell b ↔ a % 4096 = b % 4096 := by
  simp only [cell, Fin.mk.injEq]
  omega

theorem read_write (m : Memory) (a b : Int) (v : UInt8) :
    (m.write a v).read b = if cell a = cell b then v else m.read b := by
  simp only [read, write, Fin.getElem_fin, Vector.getElem_set, Fin.ext_iff]

@[simp] theorem read_write_self (m : Memory) (a : Int) (v : UInt8) : (m.write a v).read a = v := by
  simp [read_write]

theorem read_write_of_ne {a b : Int} (h : cell a ≠ cell b) (m : Memory) (v : UInt8) :
    (m.write a v).read b = m.read b := by
  simp [read_write, h]

theorem read_writeBlock_of_ne {m : Memory} {s : List UInt8} {a b : Int}
    (h : ∀ k : Nat, k < s.length → cell (a + k) ≠ cell b) :
    (m.writeBlock a s).read b = m.read b := by
  induction s generalizing m a with
  | nil => rfl
  | cons v s ih =>
    rw [writeBlock, ih, read_write_of_ne]
    · simpa using h 0 (by simp)
    · intro k hk
      have := h (k + 1) (by simpa using hk)
      rwa [Int.natCast_add, Int.natCast_one, Int.add_comm (k : Int), ← Int.add_assoc] at this

end Memory

end ChipEight
