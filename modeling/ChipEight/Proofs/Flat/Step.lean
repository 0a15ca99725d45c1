/-
Steps of the processor laid out flat are the steps of the processor.

Main statements:
* `execute_flat`: an instruction whose operands fit their fields succeeds;
* `step_flat`: a step does what a step of the processor does, and its only fault is an invalid
  opcode;
* `exists_of_step_flat_eq_error`: this is its only fault also where numbers are out of range.
-/
import ChipEight.Proofs.Flat.Drawing

namespace ChipEight.Flat

/-! ## Bytes and numbers -/

section Bytes

variable (a b : UInt8)

theorem toNat_add_ofInt (v : Int) :
    ((a.toNat : Int) + v) % 256 = (a + UInt8.ofInt v).toNat := by
  have hv := toNat_ofInt_eq_emod v
  rw [UInt8.toNat_add]
  omega

theorem toNat_add : ((a.toNat : Int) + b.toNat) % 256 = (a + b).toNat := by
  rw [UInt8.toNat_add]
  omega

theorem toNat_sub : ((a.toNat : Int) - b.toNat) % 256 = (a - b).toNat := by
  have hb := b.toNat_lt
  rw [UInt8.toNat_sub]
  omega

theorem toNat_halve : (a.toNat : Int) / 2 = (a >>> 1).toNat := by
  rw [UInt8.toNat_shiftRight, show (1 : UInt8).toNat % 8 = 1 from rfl, Nat.shiftRight_eq_div_pow]
  omega

theorem toNat_double : (a.toNat : Int) * 2 % 256 = (a <<< 1).toNat := by
  rw [UInt8.toNat_shiftLeft, show (1 : UInt8).toNat % 8 = 1 from rfl, Nat.shiftLeft_eq]
  omega

theorem lowest_bit : decide ((a.toNat : Int) % 2 = 1) = (a &&& 1 == 1) := by
  have h : (a &&& 1).toNat = a.toNat % 2 := by
    rw [UInt8.toNat_and]
    exact Nat.and_one_is_mod _
  rw [Bool.eq_iff_iff, decide_eq_true_eq, beq_iff_eq, ← UInt8.toNat_inj, h]
  change _ ↔ a.toNat % 2 = 1
  omega

theorem highest_bit : decide ((a.toNat : Int) / 128 % 2 = 1) = decide (128 ≤ a) := by
  have ha := a.toNat_lt
  rw [Bool.eq_iff_iff, decide_eq_true_eq, decide_eq_true_eq, UInt8.le_iff_toNat_le]
  change _ ↔ 128 ≤ a.toNat
  omega

theorem decide_le : decide ((a.toNat : Int) ≤ b.toNat) = decide (a ≤ b) := by
  rw [Bool.eq_iff_iff, decide_eq_true_eq, decide_eq_true_eq, UInt8.le_iff_toNat_le]
  omega

theorem decide_overflow :
    decide (255 < (a.toNat : Int) + b.toNat) = decide (255 < a.toNat + b.toNat) := by
  rw [Bool.eq_iff_iff, decide_eq_true_eq, decide_eq_true_eq]
  omega

theorem beq_toNat : ((a.toNat : Int) == b.toNat) = (a == b) := by
  rw [Bool.eq_iff_iff, beq_iff_eq, beq_iff_eq, ← UInt8.toNat_inj]
  omega

end Bytes

/-! ## Instructions -/

variable {c : Cpu} {i : Instruction}

/-- An instruction whose operands fit their fields succeeds.  The one that copies the delay timer
into a register needs a byte there. -/
theorem execute_flat (hi : i.Admitted) (h : i.opcode = .ldFromDelay → IsByte c.delay) :
    execute i c.flat = .ok (c.execute i).flat := by
  have hx : i.operand .x = (i.x.val : Int) := hi.x.symm
  have hy : i.operand .y = (i.y.val : Int) := hi.y.symm
  rw [execute, Cpu.execute, hx, hy]
  dsimp only
  cases ho : i.opcode with
  | sys | ret | jp | call | ldIndex | exit => rfl
  | cls => exact congrArg Except.ok darken_flat
  | low => exact congrArg Except.ok (setResolution_flat .low)
  | high => exact congrArg Except.ok (setResolution_flat .high)
  | seByte | sneByte =>
    dsimp only
    rw [register_flat, ok_bind, skipIf_flat]
    rfl
  | seReg | sneReg =>
    dsimp only
    rw [register_flat, ok_bind, register_flat, ok_bind, skipIf_flat]
    simp only [bne, beq_toNat]
    rfl
  | ldByte => exact setRegister_flat _ hi.kk
  | addByte =>
    dsimp only
    rw [register_flat, ok_bind]
    have hs := toNat_add_ofInt (c.register i.x) i.kk
    rw [Instruction.kk] at hs
    rw [hs, setRegister_toNat]
    rfl
  | ldReg =>
    dsimp only
    rw [register_flat, ok_bind, setRegister_toNat]
  | or | and | xor => exact bitwise_flat rfl
  | addReg => exact operate_flat (toNat_add _ _) (decide_overflow _ _)
  | sub => exact operate_flat (toNat_sub _ _) (decide_le _ _)
  | subn => exact operate_flat (toNat_sub _ _) (decide_le _ _)
  | shr => exact shift_flat (toNat_halve _) (lowest_bit _)
  | shl => exact shift_flat (toNat_double _) (highest_bit _)
  | jpOffset =>
    have hr : (if c.flat.dialect.jumpByDigit then (i.x.val : Int) else 0) =
        ((if c.dialect.jumpByDigit then i.x else 0 : Fin 16).val : Int) := by
      change (if c.dialect.jumpByDigit then _ else _) = _
      split <;> rfl
    dsimp only
    rw [hr, register_flat, ok_bind]
    rfl
  | rnd => exact drawRandom_flat _ hi.kk
  | drw => exact drawSprite_flat _ _ hi.n
  | skp | sknp =>
    dsimp only
    rw [isHeld_flat, ok_bind, skipIf_flat]
    rfl
  | ldFromDelay => exact setRegister_flat _ (h ho)
  | ldKey => exact awaitKey_flat _
  | ldDelay | ldSound | ldLargeFont =>
    dsimp only
    rw [register_flat, ok_bind]
    rfl
  | ldFont =>
    have hbase : Font.smallBase + Font.smallRows * ((c.register i.x).toNat : Int) =
        5 * (c.register i.x).toNat := Int.zero_add _
    dsimp only
    rw [register_flat, ok_bind, hbase]
    rfl
  | addIndex => exact addIndex_flat _
  | ldDecimal => exact storeDecimal_flat _
  | store => exact storeBlock_flat _
  | fetch => exact loadBlock_flat _
  | scd => exact congrArg Except.ok (scrollDown_flat _)
  | scr => exact scrollRight_flat
  | scl => exact scrollLeft_flat
  | save => exact saveBlock_flat _
  | restore => exact restoreBlock_flat _

/-- A step does what a step of the processor does; its only fault is an invalid opcode. -/
theorem step_flat (h : c.InRange) :
    c.flat.step = match c.step with
      | .ok (cost, c') => .ok (cost, c'.flat)
      | .error e => .error (.invalidOpcode e) := by
  have hw : c.flat.read16 c.flat.pc = .ok (c.word : Int) := read16_flat c.pc
  rw [step, hw, ok_bind, Cpu.step, Cpu.fetch]
  cases hd : Instruction.decode c.word with
  | error e => rfl
  | ok i =>
    have hi : i.Admitted := Cpu.admitted_of_fetch (Cpu.fetch_eq_ok_iff.2 hd)
    dsimp only
    rw [advance_flat, execute_flat (c := c.advance) hi fun _ => h.delay, ok_bind]
    rfl

/-! ## Numbers out of range -/

/-- An instruction whose operands fit their fields succeeds, whatever the timers, the program
counter and the index register hold. -/
theorem exists_execute_flat (hi : i.Admitted) : ∃ f, execute i c.flat = .ok f := by
  by_cases ho : i.opcode = .ldFromDelay
  · have hx : i.operand .x = (i.x.val : Int) := hi.x.symm
    have hlength : i.x.val < c.flat.registers.length := by simp [Cpu.flat]
    rw [execute, hx, ho]
    dsimp only
    rw [setRegister, update_natCast hlength, ok_bind]
    exact ⟨_, rfl⟩
  · exact ⟨_, execute_flat hi fun h => absurd h ho⟩

/-- The only fault of a step is an invalid opcode, whatever the numbers of the processor are. -/
theorem exists_of_step_flat_eq_error {fault : Fault} (h : c.flat.step = .error fault) :
    ∃ e, fault = .invalidOpcode e := by
  have hw : c.flat.read16 c.flat.pc = .ok (c.word : Int) := read16_flat c.pc
  rw [step, hw, ok_bind] at h
  cases hd : Instruction.decode c.word with
  | error e =>
    rw [hd] at h
    cases h
    exact ⟨_, rfl⟩
  | ok i =>
    obtain ⟨f, hf⟩ := exists_execute_flat (c := c.advance)
      (Cpu.admitted_of_fetch (Cpu.fetch_eq_ok_iff.2 hd))
    rw [hd] at h
    dsimp only at h
    rw [advance_flat, hf] at h
    cases h

end ChipEight.Flat
