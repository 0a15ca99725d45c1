/-
The ranges of what a processor holds as whole numbers: the program counter, the index register and
the return addresses have sixteen bits, the timers have eight.

Main statements:
* `Cpu.InRange.execute`: an instruction whose operands fit their fields keeps the ranges;
* `Machine.invariant_inRange`: every operation on a machine keeps them;
* `Cpu.admitted_of_fetch`: the operands of a fetched instruction fit their fields.
-/
import ChipEight.Proofs.Invariants

namespace ChipEight

/-- The number fits into a byte. -/
def IsByte (v : Int) : Prop :=
  0 ≤ v ∧ v ≤ 0xFF

/-- The number fits into sixteen bits. -/
def IsAddress (a : Int) : Prop :=
  0 ≤ a ∧ a ≤ 0xFFFF

theorem isByte_toNat (b : UInt8) : IsByte b.toNat := by
  have := b.toNat_lt
  exact ⟨by omega, by omega⟩

theorem isByte_emod (v : Int) : IsByte (v % 256) :=
  ⟨by omega, by omega⟩

theorem isAddress_emod (a : Int) : IsAddress (a % 65536) :=
  ⟨by omega, by omega⟩

/-! ## Operands -/

namespace Instruction

/-- Every operand fits its field; an operand that is missing counts as zero. -/
def Admitted (i : Instruction) : Prop :=
  ∀ f : Field, 0 ≤ i.operand f ∧ i.operand f < f.bound

theorem operand_of_not_mem_fields {i : Instruction} {f : Field} (h : f ∉ i.opcode.fields) :
    i.operand f = 0 := by
  have hnone : i.operand? f = none := by
    rw [operand?, List.lookup_eq_none_iff]
    intro p hp
    have hg : p.1 ∈ i.opcode.fields := (List.of_mem_zip hp).1
    exact bne_iff_ne.2 fun heq => h (heq ▸ hg)
  rw [operand, hnone, Option.getD_none]

theorem admitted_ofFields (o : Opcode) (word : Nat) : (ofFields o word).Admitted := by
  intro f
  by_cases hf : f ∈ o.fields
  · rw [operand_ofFields hf]
    have := f.extract_lt word
    exact ⟨by omega, by omega⟩
  · rw [operand_of_not_mem_fields hf]
    have := f.bound_pos
    exact ⟨by omega, by omega⟩

theorem decode_eq_ok {word : Int} {i : Instruction} (h : decode word = .ok i) :
    ∃ p ∈ Pattern.table, p.fits (word16 word) ∧ i = ofFields p.opcode (word16 word) := by
  rw [decode] at h
  split at h
  · rename_i p hp
    cases h
    have hfits := List.find?_some hp
    exact ⟨p, List.mem_of_find?_eq_some hp, hfits, rfl⟩
  · cases h

variable {i : Instruction}

theorem Admitted.x (h : i.Admitted) : (i.x.val : Int) = i.operand .x := by
  obtain ⟨h0, h1⟩ := h .x
  simp only [Field.bound] at h1
  simp only [Instruction.x, register, Fin.val_ofNat]
  omega

theorem Admitted.y (h : i.Admitted) : (i.y.val : Int) = i.operand .y := by
  obtain ⟨h0, h1⟩ := h .y
  simp only [Field.bound] at h1
  simp only [Instruction.y, register, Fin.val_ofNat]
  omega

theorem Admitted.n (h : i.Admitted) : 0 ≤ i.n ∧ i.n ≤ 15 := by
  obtain ⟨h0, h1⟩ := h .n
  simp only [Field.bound] at h1
  exact ⟨h0, by rw [Instruction.n]; omega⟩

theorem Admitted.kk (h : i.Admitted) : IsByte i.kk := by
  obtain ⟨h0, h1⟩ := h .kk
  simp only [Field.bound] at h1
  exact ⟨h0, by rw [Instruction.kk]; omega⟩

theorem Admitted.nnn (h : i.Admitted) : 0 ≤ i.nnn ∧ i.nnn ≤ 0xFFF := by
  obtain ⟨h0, h1⟩ := h .nnn
  simp only [Field.bound] at h1
  exact ⟨h0, by rw [Instruction.nnn]; omega⟩

theorem Admitted.isAddress (h : i.Admitted) : IsAddress i.nnn :=
  ⟨h.nnn.1, by have := h.nnn.2; omega⟩

end Instruction

namespace Cpu

theorem fetch_eq_ok_iff {c : Cpu} {i : Instruction} :
    c.fetch = .ok i ↔ Instruction.decode c.word = .ok i := by
  rw [fetch]
  cases Instruction.decode c.word <;> simp

theorem admitted_of_fetch {c : Cpu} {i : Instruction} (h : c.fetch = .ok i) : i.Admitted := by
  obtain ⟨p, -, -, rfl⟩ := Instruction.decode_eq_ok (fetch_eq_ok_iff.1 h)
  exact Instruction.admitted_ofFields _ _

/-! ## What the parts of an instruction leave alone -/

theorem exists_setBlock_eq (c : Cpu) (k : Nat) (s : List UInt8) :
    ∃ registers, c.setBlock k s = { c with registers } := by
  induction s generalizing c k with
  | nil => exact ⟨c.registers, rfl⟩
  | cons b s ih =>
    rw [setBlock]
    split
    · exact ih (c.setRegister ⟨k, ‹_›⟩ b) (k + 1)
    · exact ih c (k + 1)

theorem exists_setBitwise_eq (c : Cpu) (x : Fin 16) (b : UInt8) :
    ∃ registers, c.setBitwise x b = { c with registers } := by
  rw [setBitwise]
  split <;> exact ⟨_, rfl⟩

/-- Drawing changes the screen and the flag register, and keeps the resolution. -/
theorem exists_drawSprite_eq (c : Cpu) (x y : Fin 16) (height : Int) :
    ∃ screen b, screen.resolution = c.screen.resolution ∧
      c.drawSprite x y height = { c with screen }.setRegister flag b := by
  have hresolution {k : Nat} (px py : Nat) (rows : List (BitVec k)) :
      (c.screen.draw c.dialect.spriteWrap px py rows).screen.resolution = c.screen.resolution :=
    Screen.Drawing.resolution_drawRows _ _ _ _ _
  rw [drawSprite]
  dsimp only
  split
  · exact ⟨_, _, hresolution _ _ c.largeSprite, rfl⟩
  · exact ⟨_, _, hresolution _ _ (c.smallSprite _), rfl⟩

/-! ## Ranges -/

/-- The whole numbers that the processor holds are in their ranges. -/
structure InRange (c : Cpu) : Prop where
  pc : IsAddress c.pc
  index : IsAddress c.index
  delay : IsByte c.delay
  sound : IsByte c.sound
  stack : ∀ a ∈ c.stack, IsAddress a

theorem inRange_fresh (dialect : Dialect) (seed : Int) : (fresh dialect seed).InRange := by
  refine ⟨?_, ?_, ?_, ?_, ?_⟩ <;> simp [fresh, IsAddress, IsByte, Memory.programStart]

namespace InRange

variable {c : Cpu} (h : c.InRange)
include h

theorem advance : c.advance.InRange :=
  ⟨isAddress_emod _, h.index, h.delay, h.sound, h.stack⟩

theorem skipIf (condition : Bool) : (c.skipIf condition).InRange := by
  rw [Cpu.skipIf]
  split
  · exact h.advance
  · exact h

theorem jump {a : Int} (ha : IsAddress a) : { c with pc := a }.InRange :=
  ⟨ha, h.index, h.delay, h.sound, h.stack⟩

theorem point {a : Int} (ha : IsAddress a) : { c with index := a }.InRange :=
  ⟨h.pc, ha, h.delay, h.sound, h.stack⟩

/-- Registers, memory and screen may be changed freely. -/
theorem withContents (registers : Vector UInt8 16) (memory : Memory) (screen : Screen) :
    { c with registers, memory, screen }.InRange :=
  ⟨h.pc, h.index, h.delay, h.sound, h.stack⟩

theorem passBlock (last : Int) : (c.passBlock last).InRange := by
  rw [Cpu.passBlock]
  split
  · exact h.point (isAddress_emod _)
  · exact h

theorem setBlock (k : Nat) (s : List UInt8) : (c.setBlock k s).InRange := by
  obtain ⟨registers, hs⟩ := exists_setBlock_eq c k s
  rw [hs]
  exact h.withContents _ _ _

theorem pop : { c.pop.2 with pc := c.pop.1 }.InRange := by
  refine ⟨?_, h.index, h.delay, h.sound, fun a ha => h.stack a (List.mem_of_mem_tail ha)⟩
  rw [Cpu.pop]
  cases hs : c.stack with
  | nil => exact ⟨by simp, by simp⟩
  | cons a s => exact h.stack a (by simp [hs])

theorem awaitKey (x : Fin 16) : (c.awaitKey x).InRange := by
  rw [Cpu.awaitKey]
  split
  · exact h.withContents _ _ _
  · exact h.jump (isAddress_emod _)

theorem timersNonneg : c.TimersNonneg :=
  ⟨h.delay.1, h.sound.1⟩

theorem tickTimers : c.tickTimers.InRange := by
  have hticked {t : Int} (ht : IsByte t) : IsByte (max (t - 1) 0) := by
    rw [IsByte] at ht ⊢
    omega
  rw [h.timersNonneg.tickTimers_eq]
  exact ⟨h.pc, h.index, hticked h.delay, hticked h.sound, h.stack⟩

/-- An instruction whose operands fit their fields keeps the ranges. -/
theorem execute {i : Instruction} (hi : i.Admitted) : (c.execute i).InRange := by
  have hv : ∀ x, IsByte (c.register x).toNat := fun x => isByte_toNat _
  rw [Cpu.execute]
  cases ho : i.opcode with
  | ret => exact h.pop
  | jp => exact ⟨hi.isAddress, h.index, h.delay, h.sound, h.stack⟩
  | call =>
    refine ⟨hi.isAddress, h.index, h.delay, h.sound, ?_⟩
    exact List.forall_mem_cons.2 ⟨h.pc, h.stack⟩
  | seByte | sneByte | seReg | sneReg | skp | sknp => exact h.skipIf _
  | or | and | xor =>
    dsimp only
    obtain ⟨registers, hs⟩ := exists_setBitwise_eq c i.x _
    rw [hs]
    exact h.withContents _ _ _
  | ldIndex => exact h.point hi.isAddress
  | jpOffset => exact h.jump (isAddress_emod _)
  | drw =>
    dsimp only
    obtain ⟨screen, b, -, hs⟩ := exists_drawSprite_eq c i.x i.y i.n
    rw [hs]
    exact h.withContents _ _ _
  | ldKey => exact h.awaitKey _
  | ldDelay => exact ⟨h.pc, h.index, hv _, h.sound, h.stack⟩
  | ldSound => exact ⟨h.pc, h.index, h.delay, hv _, h.stack⟩
  | addIndex =>
    refine ⟨h.pc, ?_, h.delay, h.sound, h.stack⟩
    dsimp only [Cpu.addIndex]
    exact ⟨by omega, by omega⟩
  | ldFont =>
    obtain ⟨h0, h1⟩ := hv i.x
    refine h.point ⟨?_, ?_⟩ <;> simp only [Font.smallBase, Font.smallRows] <;> omega
  | ldLargeFont =>
    obtain ⟨h0, h1⟩ := hv i.x
    refine h.point ⟨?_, ?_⟩ <;> simp only [Font.largeBase, Font.largeRows] <;> omega
  | store => exact (h.withContents _ _ _).passBlock _
  | fetch => exact (h.setBlock _ _).passBlock _
  | restore => exact h.setBlock _ _
  | _ => exact ⟨h.pc, h.index, h.delay, h.sound, h.stack⟩

theorem perform {i : Instruction} (hi : c.fetch = .ok i) : (c.perform i).InRange :=
  h.advance.execute (admitted_of_fetch hi)

end InRange

end Cpu

/-! ## Machines -/

namespace Machine

/-- The processor is in range, and the breakpoints are addresses of sixteen bits. -/
structure InRange (s : Machine) : Prop where
  cpu : s.cpu.InRange
  breakpoints : ∀ a ∈ s.breakpoints, IsAddress a

theorem inRange_fresh (dialect : Dialect) (clock seed : Int) :
    (fresh dialect clock seed).InRange :=
  ⟨Cpu.inRange_fresh dialect seed, fun _ h => absurd h List.not_mem_nil⟩

theorem inRange_withRegister {c cpu : Cpu} {name : List Char} {v : Int} (h : c.InRange)
    (hr : Monitor.withRegister c name v = some cpu) : cpu.InRange := by
  unfold Monitor.withRegister at hr
  split at hr
  · cases hr
    exact h.jump (isAddress_emod v)
  · cases hr
    exact h.point (isAddress_emod v)
  · cases hr
    exact ⟨h.pc, h.index, isByte_emod v, h.sound, h.stack⟩
  · cases hr
    exact ⟨h.pc, h.index, h.delay, isByte_emod v, h.stack⟩
  · obtain ⟨x, -, rfl⟩ := Option.map_eq_some_iff.1 hr
    exact h.withContents _ _ _
  · cases hr

theorem exists_load_eq {s s' : Machine} {program : Image} (h : s.load program = .ok s') :
    ∃ memory, s' = { s with program, cpu := { s.cpu with memory } } := by
  rw [load] at h
  split at h
  · cases h
    exact ⟨_, rfl⟩
  · cases h

/-- Every operation on a machine keeps the ranges. -/
theorem invariant_inRange : Invariant InRange where
  perform hi h := ⟨h.cpu.perform hi, h.breakpoints⟩
  tickTimers h := ⟨h.cpu.tickTimers, h.breakpoints⟩
  halted _ h := ⟨h.cpu, h.breakpoints⟩
  stepCycles _ h := ⟨h.cpu, h.breakpoints⟩
  load hl h := by
    obtain ⟨memory, rfl⟩ := exists_load_eq hl
    exact ⟨h.cpu.withContents _ _ _, h.breakpoints⟩
  reset _ h := ⟨(Cpu.inRange_fresh _ _).withContents _ _ _, h.breakpoints⟩
  setBreakpoint a h := by
    refine ⟨h.cpu, fun b hb => ?_⟩
    rcases Breakpoints.mem_insert.1 hb with rfl | hb
    · exact isAddress_emod a
    · exact h.breakpoints b hb
  removeBreakpoint a h := ⟨h.cpu, fun b hb => h.breakpoints b (Breakpoints.mem_erase.1 hb).1⟩
  clearBreakpoints h := ⟨h.cpu, fun _ hb => absurd hb List.not_mem_nil⟩
  keyDown _ h := ⟨⟨h.cpu.pc, h.cpu.index, h.cpu.delay, h.cpu.sound, h.cpu.stack⟩, h.breakpoints⟩
  keyUp _ h := ⟨⟨h.cpu.pc, h.cpu.index, h.cpu.delay, h.cpu.sound, h.cpu.stack⟩, h.breakpoints⟩
  withRegister hr h := ⟨inRange_withRegister h.cpu hr, h.breakpoints⟩
  write _ _ h := ⟨h.cpu.withContents _ _ _, h.breakpoints⟩

end Machine

end ChipEight
