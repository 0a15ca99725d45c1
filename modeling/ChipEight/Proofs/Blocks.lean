/-
Blocks of registers in memory.

A block is stored in the cells from the index register on, round the end of the memory, and loaded
from there.  It has sixteen bytes at most, so no two of them meet in one cell, and what was stored
can be loaded again.  The index register is moved behind the block, if the dialect says so, only
after the transfer.

Main statements:
* `Cpu.read_storeBlock_of_le`, `Cpu.read_storeBlock_of_ne`: the memory after a block is stored;
* `Cpu.register_loadBlock_of_le`, `Cpu.register_loadBlock_of_lt`: the registers after a block is
  loaded;
* `Cpu.load_inverts_store`: a block that was stored is loaded again.
-/
import ChipEight.Proofs.Footprints

namespace ChipEight.Cpu

variable {c : Cpu} {x r : Fin 16} {a : Int}

/-! ## Behind a block -/

/-- The index register after a block that ends with register `x`. -/
def indexBehind (c : Cpu) (x : Fin 16) : Int :=
  if c.dialect.indexAdvance then (c.index + x.val + 1) % 65536 else c.index

theorem passBlock_eq (c : Cpu) (x : Fin 16) :
    c.passBlock x.val = { c with index := c.indexBehind x } := by
  rw [passBlock, indexBehind]
  split <;> rfl

/-! ## Storing -/

theorem storeBlock_eq (c : Cpu) (x : Fin 16) :
    c.storeBlock x.val = { c with
      memory := c.memory.writeBlock c.index (c.block x.val), index := c.indexBehind x } :=
  passBlock_eq _ x

theorem length_block (c : Cpu) (x : Fin 16) : (c.block x.val).length = x.val + 1 := by
  rw [block, blockLength_val, List.length_take, Vector.length_toList]
  omega

theorem getElem_block (h : r.val < (c.block x.val).length) :
    (c.block x.val)[r.val] = c.register r := by
  simp [block, register]

/-- The cells of a block that was stored hold its registers. -/
theorem read_storeBlock_of_le (h : r ≤ x) :
    (c.storeBlock x.val).memory.read (c.index + r.val) = c.register r := by
  have hlength := c.length_block x
  have hr : r.val < (c.block x.val).length := by omega
  rw [storeBlock_eq]
  exact (Memory.read_writeBlock (by omega) c.index hr).trans (getElem_block hr)

/-- The cells that are not in the block are as they were. -/
theorem read_storeBlock_of_ne (h : ∀ k ≤ x, (c.index + k.val) % 4096 ≠ a % 4096) :
    (c.storeBlock x.val).memory.read a = c.memory.read a := by
  rw [storeBlock_eq]
  refine Memory.read_writeBlock_of_ne fun k hk heq => ?_
  rw [length_block] at hk
  have hle : (⟨k, by omega⟩ : Fin 16) ≤ x := Fin.le_def.2 (Nat.le_of_lt_succ hk)
  exact h _ hle (Memory.cell_eq_cell_iff.1 heq)

/-! ## Loading -/

/-- A register inside a block that is loaded holds the byte at its place. -/
theorem register_setBlock {k j : Nat} {s : List UInt8} (hj : j < s.length) (hr : r.val = k + j) :
    (c.setBlock k s).register r = s[j] := by
  induction s generalizing c k j with
  | nil => exact absurd hj (Nat.not_lt_zero j)
  | cons b s ih =>
    rw [setBlock]
    cases j with
    | zero =>
      -- The bytes behind the first one go to later registers.
      rw [register_setBlock_of_le (.inl (by omega)), dif_pos (by omega), register_setRegister,
        if_pos (Fin.ext (by simpa using hr.symm)), List.getElem_cons_zero]
    | succ j =>
      rw [List.length_cons] at hj
      rw [ih (Nat.lt_of_succ_lt_succ hj) (by omega), List.getElem_cons_succ]

/-- To load a block changes registers and the index register. -/
theorem loadBlock_eq (c : Cpu) (x : Fin 16) :
    ∃ registers, c.loadBlock x.val = { c with registers, index := c.indexBehind x } := by
  obtain ⟨registers, h⟩ := exists_setBlock_eq c 0
    ((List.range (blockLength x.val)).map fun (k : Nat) => c.memory.read (c.index + k))
  refine ⟨registers, ?_⟩
  rw [loadBlock, passBlock_eq, h]
  rfl

theorem register_passBlock (c : Cpu) (x r : Fin 16) :
    (c.passBlock x.val).register r = c.register r := by
  rw [passBlock_eq]
  rfl

theorem register_loadBlock_of_le (h : r ≤ x) :
    (c.loadBlock x.val).register r = c.memory.read (c.index + r.val) := by
  have hr : r.val < ((List.range (x.val + 1)).map fun (k : Nat) =>
      c.memory.read (c.index + k)).length := by
    rw [List.length_map, List.length_range]
    exact Nat.lt_succ_of_le h
  rw [loadBlock, register_passBlock, blockLength_val, register_setBlock hr (Nat.zero_add _).symm,
    List.getElem_map, List.getElem_range]

theorem register_loadBlock_of_lt (h : x < r) : (c.loadBlock x.val).register r = c.register r := by
  rw [loadBlock, register_passBlock, blockLength_val]
  refine register_setBlock_of_le (.inr ?_)
  rw [List.length_map, List.length_range, Nat.zero_add]
  exact h

/-! ## Storing and loading again -/

/-- A block that is stored fills the cells from the index register on, one for each register, and
leaves the others alone.  When registers have been changed since, and the index register points to
the block again, loading it brings the registers back, and leaves the registers behind it and the
memory alone.  Both move the index register behind the block if the dialect says so, and leave it
alone otherwise. -/
theorem load_inverts_store (c : Cpu) (x : Fin 16) (registers : Vector UInt8 16) :
    let stored := c.execute ⟨.store, [x.val]⟩
    let changed := { stored with registers, index := c.index }
    let loaded := changed.execute ⟨.fetch, [x.val]⟩
    let passed := if c.dialect.indexAdvance then (c.index + x.val + 1) % 65536 else c.index
    (∀ k ≤ x, stored.memory.read (c.index + k.val) = c.register k) ∧
      (∀ a, (∀ k ≤ x, (c.index + k.val) % 4096 ≠ a % 4096) →
        stored.memory.read a = c.memory.read a) ∧
      (∀ k ≤ x, loaded.register k = c.register k) ∧
      (∀ k, x < k → loaded.register k = changed.register k) ∧
      loaded.memory = stored.memory ∧ stored.index = passed ∧ loaded.index = passed := by
  intro stored changed loaded passed
  have hstored : stored = c.storeBlock x.val := rfl
  have hloaded : loaded = changed.loadBlock x.val := rfl
  have hstore := c.storeBlock_eq x
  obtain ⟨after, hload⟩ := changed.loadBlock_eq x
  have hbehind : changed.indexBehind x = passed := by
    rw [show changed = { stored with registers, index := c.index } from rfl, hstored, hstore]
    rfl
  refine ⟨fun k hk => read_storeBlock_of_le hk, fun a ha => read_storeBlock_of_ne ha,
    fun k hk => ?_, fun k hk => register_loadBlock_of_lt hk, ?_, ?_, ?_⟩
  · calc loaded.register k = stored.memory.read (c.index + k.val) := register_loadBlock_of_le hk
      _ = c.register k := read_storeBlock_of_le hk
  · rw [hloaded, hload]
  · rw [hstored, hstore]
    rfl
  · rw [hloaded, hload]
    exact hbehind

end ChipEight.Cpu
