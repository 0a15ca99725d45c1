/-
Programs in memory: after a reset the cells from the start of programs on hold the program, with
zeros behind it.

Main statements:
* `Memory.read_writeBlock`: a block that was written can be read;
* `Machine.read_reset`, `Machine.word_of_program`, `Machine.fetch_of_program`: what the processor of
  a machine that was reset finds at the addresses of the program.
-/
import ChipEight.Machine.Basic

namespace ChipEight

namespace Memory

/-- A block that was written can be read, if it does not reach round the memory. -/
theorem read_writeBlock {m : Memory} {s : List UInt8} (hs : s.length ≤ 4096) (a : Int) {k : Nat}
    (hk : k < s.length) : (m.writeBlock a s).read (a + k) = s[k] := by
  induction s generalizing m a k with
  | nil => simp at hk
  | cons b s ih =>
    rw [List.length_cons] at hs hk
    rw [writeBlock]
    rcases k with - | k
    · -- The first byte is not overwritten by those behind it.
      have hne : ∀ l : Nat, l < s.length → cell (a + 1 + l) ≠ cell (a + (0 : Nat)) := by
        intro l hl heq
        rw [cell_eq_cell_iff] at heq
        omega
      rw [read_writeBlock_of_ne hne]
      simp
    · have hplace : a + ((k + 1 : Nat) : Int) = a + 1 + (k : Nat) := by omega
      rw [hplace, ih (by omega) (a + 1) (by omega)]
      simp

/-- The memory holds zeros behind the fonts. -/
theorem read_fresh {a : Int} (h : 240 ≤ a ∧ a < 4096) : Memory.fresh.read a = 0 := by
  have hsmall : Font.small.length = 80 := Font.length_small
  have hlarge : Font.large.length = 160 := Font.length_large
  rw [Memory.fresh, Memory.read_writeBlock_of_ne, Memory.read_writeBlock_of_ne]
  · simp [Memory.read]
  · intro k hk heq
    rw [Memory.cell_eq_cell_iff, Font.smallBase] at heq
    omega
  · intro k hk heq
    rw [Memory.cell_eq_cell_iff, Font.largeBase] at heq
    omega

end Memory

namespace Machine

variable {s : Machine} {d : Option Dialect} {c : Cpu} {i : Instruction} {k : Nat}

/-- After a reset the memory holds the program, with zeros behind it. -/
theorem read_reset (hs : s.program.length ≤ Memory.programLimit) (hk : k < Memory.programLimit) :
    (s.reset d).cpu.memory.read (Memory.programStart + k : Int) = s.program.getD k 0 := by
  rw [Memory.programLimit, Memory.programStart] at hs hk
  show (Memory.fresh.writeBlock Memory.programStart s.program).read _ = _
  by_cases hlt : k < s.program.length
  · rw [Memory.read_writeBlock (by omega) _ hlt]
    simp [hlt]
  · have hne : ∀ l : Nat, l < s.program.length →
        Memory.cell (Memory.programStart + l : Int) ≠ Memory.cell (Memory.programStart + k) := by
      intro l hl heq
      rw [Memory.cell_eq_cell_iff, Memory.programStart] at heq
      omega
    rw [Memory.read_writeBlock_of_ne hne, Memory.read_fresh]
    · simp [hlt]
    · rw [Memory.programStart]
      omega

/-- The word at the program counter in a program that has not changed since the reset. -/
theorem word_of_program (program : Image) (hm : c.memory = (s.reset d).cpu.memory)
    (hp : s.program = program) (hs : program.length ≤ Memory.programLimit)
    (hpc : c.pc = Memory.programStart + k) (hk : k + 1 < Memory.programLimit) :
    c.word = (program.getD k 0).toNat * 256 + (program.getD (k + 1) 0).toNat := by
  subst hp
  have hnext : (Memory.programStart + k : Int) + 1 = Memory.programStart + (k + 1 : Nat) := by omega
  rw [Cpu.word, Memory.read16, hm, hpc, hnext, read_reset hs (by omega), read_reset hs hk]

/-- What is fetched from a program that has not changed since the reset. -/
theorem fetch_of_program (program : Image) (hm : c.memory = (s.reset d).cpu.memory)
    (hp : s.program = program) (hs : program.length ≤ Memory.programLimit)
    (hpc : c.pc = Memory.programStart + k) (hk : k + 1 < Memory.programLimit)
    (hi : Instruction.decode
      ((program.getD k 0).toNat * 256 + (program.getD (k + 1) 0).toNat : Nat) = .ok i) :
    c.fetch = .ok i := by
  rw [Cpu.fetch, word_of_program program hm hp hs hpc hk, hi]

end Machine

end ChipEight
