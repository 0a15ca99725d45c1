/-
The processor laid out flat: registers, cells, slots, keys and pixels are lists of numbers and
truth values, and nothing is promised about their lengths or about what they hold.

A list is looked up at any whole number, and a number that does not name one of its elements is
a fault.

Main definitions:
* `Flat.WellFormed`: the lengths and ranges that a machine in order has;
* `Cpu.flat`: the processor laid out flat.

Main statements:
* `Cpu.wellFormed_flat_iff`: a processor laid out flat is well-formed if its whole numbers are in
  range;
* `Flat.exists_eq_flat`: whatever is well-formed is a processor laid out flat.
-/
import ChipEight.Proofs.Ranges
import ChipEight.Proofs.Screen.Pixels

namespace ChipEight

/-- The state of a processor as lists. -/
structure Flat where
  /-- The dialect. -/
  dialect : Dialect
  /-- The cells of the memory. -/
  memory : List Int
  /-- The registers. -/
  registers : List Int
  /-- The index register. -/
  index : Int
  /-- The program counter. -/
  pc : Int
  /-- The delay timer. -/
  delay : Int
  /-- The sound timer. -/
  sound : Int
  /-- The return addresses, the latest first. -/
  stack : List Int
  /-- The slots for saved registers. -/
  saved : List Int
  /-- Which keys are held. -/
  keys : List Bool
  /-- Whether the screen is in the high resolution. -/
  isHigh : Bool
  /-- The number of pixels in a row. -/
  width : Nat
  /-- The number of rows. -/
  height : Nat
  /-- The pixels, row after row. -/
  pixels : List Bool
  /-- Whether the program has not stopped. -/
  running : Bool
  /-- The random numbers to come. -/
  random : Random

namespace Flat

/-- What can go wrong in a step. -/
inductive Fault
  /-- A list is looked up outside its range. -/
  | outOfRange (place : Int) (length : Nat)
  /-- A screen without rows or columns is drawn on or scrolled. -/
  | emptyScreen
  /-- A random number is asked for from an empty range. -/
  | emptyRange (error : Cpu.EmptyRange)
  /-- The word at the program counter is no instruction. -/
  | invalidOpcode (error : InvalidOpcode)
  deriving DecidableEq, Repr

/-! ## Lookup -/

/-- The element of a list at a place. -/
def access {α : Type} (s : List α) (k : Int) : Except Fault α :=
  if h : 0 ≤ k ∧ k < s.length then .ok (s.get ⟨k.toNat, by omega⟩)
  else .error (.outOfRange k s.length)

/-- The list with another element at a place. -/
def update {α : Type} (s : List α) (k : Int) (a : α) : Except Fault (List α) :=
  if 0 ≤ k ∧ k < s.length then .ok (s.set k.toNat a) else .error (.outOfRange k s.length)

@[simp] theorem ok_bind {ε α β : Type} (a : α) (f : α → Except ε β) :
    (Except.ok a >>= f) = f a := rfl

theorem access_natCast {α : Type} {s : List α} {k : Nat} (h : k < s.length) :
    access s k = .ok s[k] := by
  have hk : (0 : Int) ≤ k ∧ (k : Int) < s.length := by omega
  simp [access, hk]

theorem update_natCast {α : Type} {s : List α} {k : Nat} (h : k < s.length) (a : α) :
    update s k a = .ok (s.set k a) := by
  have hk : (0 : Int) ≤ k ∧ (k : Int) < s.length := by omega
  simp [update, hk]

/-! ## Order -/

/-- The lengths and ranges of a machine in order. -/
structure WellFormed (f : Flat) : Prop where
  registers_length : f.registers.length = 16
  registers_isByte : ∀ v ∈ f.registers, IsByte v
  saved_length : f.saved.length = 8
  saved_isByte : ∀ v ∈ f.saved, IsByte v
  memory_length : f.memory.length = 4096
  memory_isByte : ∀ v ∈ f.memory, IsByte v
  delay_isByte : IsByte f.delay
  sound_isByte : IsByte f.sound
  pc_isAddress : IsAddress f.pc
  index_isAddress : IsAddress f.index
  stack_isAddress : ∀ a ∈ f.stack, IsAddress a
  keys_length : f.keys.length = 16
  size : (f.width, f.height) = if f.isHigh then (128, 64) else (64, 32)
  pixels_length : f.pixels.length = f.width * f.height

/-! ## Bytes as numbers -/

/-- Bytes as whole numbers. -/
def numbers {n : Nat} (bytes : Vector UInt8 n) : List Int :=
  bytes.toList.map fun b => (b.toNat : Int)

section Numbers

variable {n : Nat} (bytes : Vector UInt8 n)

@[simp] theorem length_numbers : (numbers bytes).length = n := by
  simp [numbers]

theorem isByte_of_mem_numbers {v : Int} (h : v ∈ numbers bytes) : IsByte v := by
  obtain ⟨b, -, rfl⟩ := List.mem_map.1 h
  exact isByte_toNat b

theorem access_numbers (k : Fin n) : access (numbers bytes) k.val = .ok (bytes[k].toNat : Int) := by
  have hk : k.val < (numbers bytes).length := by simp
  rw [access_natCast hk]
  simp [numbers]

theorem toNat_ofInt {v : Int} (h : IsByte v) : ((UInt8.ofInt v).toNat : Int) = v := by
  obtain ⟨h0, h1⟩ := h
  rw [toNat_ofInt_eq_emod]
  omega

theorem update_numbers (k : Fin n) {v : Int} (h : IsByte v) :
    update (numbers bytes) k.val v = .ok (numbers (bytes.set k (UInt8.ofInt v))) := by
  have hk : k.val < (numbers bytes).length := by simp
  rw [update_natCast hk, numbers, numbers, Vector.toList_set, List.map_set, toNat_ofInt h]

/-- Every list of bytes of the right length comes from a vector. -/
theorem exists_numbers_eq {s : List Int} (hl : s.length = n) (h : ∀ v ∈ s, IsByte v) :
    ∃ bytes : Vector UInt8 n, numbers bytes = s := by
  refine ⟨⟨(s.map UInt8.ofInt).toArray, by simpa using hl⟩, ?_⟩
  rw [numbers, ← Vector.toList_toArray, List.map_map]
  exact (List.map_congr_left fun v hv => toNat_ofInt (h v hv)).trans (List.map_id s)

end Numbers

end Flat

/-! ## The processor laid out flat -/

namespace Cpu

/-- The processor laid out flat. -/
def flat (c : Cpu) : Flat where
  dialect := c.dialect
  memory := Flat.numbers c.memory.cells
  registers := Flat.numbers c.registers
  index := c.index
  pc := c.pc
  delay := c.delay
  sound := c.sound
  stack := c.stack
  saved := Flat.numbers c.saved
  keys := c.keys.toList
  isHigh := c.screen.resolution = .high
  width := c.screen.width
  height := c.screen.height
  pixels := c.screen.pixels
  running := c.running
  random := c.random

theorem wellFormed_flat_iff {c : Cpu} : c.flat.WellFormed ↔ c.InRange := by
  constructor
  · intro h
    exact ⟨h.pc_isAddress, h.index_isAddress, h.delay_isByte, h.sound_isByte, h.stack_isAddress⟩
  · intro h
    refine {
      registers_length := Flat.length_numbers _
      registers_isByte := fun _ => Flat.isByte_of_mem_numbers _
      saved_length := Flat.length_numbers _
      saved_isByte := fun _ => Flat.isByte_of_mem_numbers _
      memory_length := Flat.length_numbers _
      memory_isByte := fun _ => Flat.isByte_of_mem_numbers _
      delay_isByte := h.delay
      sound_isByte := h.sound
      pc_isAddress := h.pc
      index_isAddress := h.index
      stack_isAddress := h.stack
      keys_length := Vector.length_toList
      size := ?_
      pixels_length := (Screen.length_pixels _).trans (Nat.mul_comm _ _) }
    cases hr : c.screen.resolution <;>
      simp [flat, Screen.width, Screen.height, hr, Resolution.width, Resolution.height]

end Cpu

/-- Whatever is well-formed is a processor laid out flat. -/
theorem Flat.exists_eq_flat {f : Flat} (h : f.WellFormed) : ∃ c : Cpu, c.InRange ∧ c.flat = f := by
  obtain ⟨memory, hm⟩ := exists_numbers_eq h.memory_length h.memory_isByte
  obtain ⟨registers, hv⟩ := exists_numbers_eq h.registers_length h.registers_isByte
  obtain ⟨saved, hs⟩ := exists_numbers_eq h.saved_length h.saved_isByte
  let keys : Vector Bool 16 := ⟨f.keys.toArray, by simpa using h.keys_length⟩
  let r : Resolution := if f.isHigh then .high else .low
  have hsize : (f.width, f.height) = (r.width, r.height) := by
    rw [h.size]
    cases hh : f.isHigh <;> simp [r, hh, Resolution.width, Resolution.height]
  have hw : f.width = r.width := congrArg Prod.fst hsize
  have hh : f.height = r.height := congrArg Prod.snd hsize
  have hp : f.pixels.length = r.height * r.width := by
    rw [h.pixels_length, hw, hh, Nat.mul_comm]
  let c : Cpu := {
    dialect := f.dialect, memory := ⟨memory⟩, registers, index := f.index, pc := f.pc
    delay := f.delay, sound := f.sound, stack := f.stack, saved, keys
    screen := Screen.ofPixels r f.pixels, running := f.running, random := f.random }
  have hc : c.flat = f := by
    have hhigh : decide (c.screen.resolution = .high) = f.isHigh := by
      cases hh : f.isHigh <;> simp [c, r, hh, Screen.ofPixels, Screen.ofRows]
    have hpix : c.screen.pixels = f.pixels := Screen.pixels_ofPixels hp
    obtain ⟨⟩ := f
    simp only [Cpu.flat, Flat.mk.injEq]
    exact ⟨rfl, hm, hv, rfl, rfl, rfl, rfl, rfl, hs, rfl, hhigh, hw.symm, hh.symm, hpix, rfl, rfl⟩
  exact ⟨c, Cpu.wellFormed_flat_iff.1 (hc ▸ h), hc⟩

end ChipEight
