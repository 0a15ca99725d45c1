/-
Arithmetic, bitwise operations and shifts.

An operation takes its operands from the registers as they were before it, puts its result into
register `x`, and writes the flag register after that.  So it does not matter whether `x`, `y` and
the flag register are one, two or three registers, except that a result is lost if the flag is
written over it.

Main definition: `Cpu.Yields`, what an operation leaves in the registers.

Main statements:
* `Cpu.yields_setResult`, `Cpu.yields_setBitwise`: the two ways in which operations end;
* `Cpu.operations_use_old_operands`: what each operation leaves in the registers.
-/
import ChipEight.Proofs.Flat.Step
import ChipEight.Proofs.Footprints

namespace ChipEight

namespace Cpu

variable {c : Cpu} {x y : Fin 16} {z : UInt8} {condition : Bool} {result last : Int}

/-! ## Results -/

/-- The second processor has the result in register `x`, unless that is the flag register; the flag
register holds what is written last, and the other registers are those of the first processor. -/
structure Yields (c c' : Cpu) (x : Fin 16) (result last : Int) : Prop where
  result : x ≠ flag → ((c'.register x).toNat : Int) = result
  last : ((c'.register flag).toNat : Int) = last
  others : ∀ r, r ≠ x → r ≠ flag → c'.register r = c.register r

/-- An operation with a flag writes it last. -/
theorem yields_setResult (hz : result = z.toNat) (hl : last = condition.toNat) :
    c.Yields (c.setResult x z condition) x result last where
  result hx := by
    rw [setResult, setFlag, register_setRegister_of_ne hx, register_setRegister, if_pos rfl, hz]
  last := by
    rw [setResult, setFlag, register_setRegister, if_pos rfl, hl]
    cases condition <;> rfl
  others r hx hf := by
    rw [setResult, setFlag, register_setRegister_of_ne hf, register_setRegister_of_ne hx]

/-- What the flag register holds after a bitwise operation: zero if the dialect says so, otherwise
what it held before, unless the result is put there. -/
def lastBitwise (c : Cpu) (x : Fin 16) (bits : Nat) : Nat :=
  if c.dialect.flagReset then 0 else if x = flag then bits else (c.register flag).toNat

theorem yields_setBitwise (c : Cpu) (x : Fin 16) (z : UInt8) :
    c.Yields (c.setBitwise x z) x z.toNat (c.lastBitwise x z.toNat) := by
  rw [setBitwise, dialect_setRegister, lastBitwise]
  cases c.dialect.flagReset with
  | true =>
    refine ⟨fun hx => ?_, ?_, fun r hx hf => ?_⟩
    · rw [if_pos rfl, register_setRegister_of_ne hx, register_setRegister, if_pos rfl]
    · rw [if_pos rfl, if_pos rfl, register_setRegister, if_pos rfl]
      rfl
    · rw [if_pos rfl, register_setRegister_of_ne hf, register_setRegister_of_ne hx]
  | false =>
    simp only [Bool.false_eq_true, if_false]
    refine ⟨fun _ => ?_, ?_, fun r hx _ => register_setRegister_of_ne hx z⟩
    · rw [register_setRegister, if_pos rfl]
    · rw [register_setRegister]
      split <;> rfl

/-! ## Numbers -/

theorem ite_eq_toNat {p : Prop} [Decidable p] (h : decide p = condition) :
    (if p then 1 else 0 : Int) = condition.toNat := by
  subst h
  by_cases hp : p <;> simp [hp]

theorem emod_two_eq_toNat (s : UInt8) : (s.toNat : Int) % 2 = (s &&& 1 == 1).toNat := by
  rw [← Flat.lowest_bit, ← ite_eq_toNat rfl]
  split <;> omega

theorem ediv_eq_toNat (s : UInt8) : (s.toNat : Int) / 128 = (decide (128 ≤ s)).toNat := by
  have hs := s.toNat_lt
  rw [← Flat.highest_bit, ← ite_eq_toNat rfl]
  split <;> omega

/-- The number that is shifted. -/
theorem toNat_shiftSource (c : Cpu) (x y : Fin 16) :
    (if c.dialect.shiftInPlace then (c.register x).toNat else (c.register y).toNat) =
      (c.register (c.shiftSource x y)).toNat := by
  rw [shiftSource]
  split <;> rfl

/-! ## Operations -/

/-- Every operation uses what its operands were before it, whichever registers they are, and the
flag is written after the result.  Sums, differences and shifts tell the carry, that there is no
borrow, or the bit that is shifted out; bitwise operations clear the flag register if the dialect
says so; to add a byte has no flag. -/
theorem operations_use_old_operands (c : Cpu) (i : Instruction) :
    let a := (c.register i.x).toNat
    let b := (c.register i.y).toNat
    let s := if c.dialect.shiftInPlace then a else b
    let c' := c.execute i
    (i.opcode = .addReg → c.Yields c' i.x ((a + b : Int) % 256) (if 255 < a + b then 1 else 0)) ∧
      (i.opcode = .sub → c.Yields c' i.x ((a - b : Int) % 256) (if b ≤ a then 1 else 0)) ∧
      (i.opcode = .subn → c.Yields c' i.x ((b - a : Int) % 256) (if a ≤ b then 1 else 0)) ∧
      (i.opcode = .shr → c.Yields c' i.x (s / 2 : Int) (s % 2 : Int)) ∧
      (i.opcode = .shl → c.Yields c' i.x (s * 2 % 256 : Int) (s / 128 : Int)) ∧
      (i.opcode = .or → c.Yields c' i.x ↑(a ||| b) (c.lastBitwise i.x (a ||| b))) ∧
      (i.opcode = .and → c.Yields c' i.x ↑(a &&& b) (c.lastBitwise i.x (a &&& b))) ∧
      (i.opcode = .xor → c.Yields c' i.x ↑(a ^^^ b) (c.lastBitwise i.x (a ^^^ b))) ∧
      (i.opcode = .addByte → ((c'.register i.x).toNat : Int) = (a + i.kk) % 256 ∧
        ∀ r, r ≠ i.x → c'.register r = c.register r) := by
  intro a b s c'
  have hs : s = (c.register (c.shiftSource i.x i.y)).toNat := c.toNat_shiftSource i.x i.y
  have hle (v w : UInt8) : decide (v.toNat ≤ w.toNat) = decide (v ≤ w) :=
    decide_eq_decide.2 UInt8.le_iff_toNat_le.symm
  have hc' : c' = c.execute i := rfl
  refine ⟨fun ho => ?_, fun ho => ?_, fun ho => ?_, fun ho => ?_, fun ho => ?_, fun ho => ?_,
    fun ho => ?_, fun ho => ?_, fun ho => ?_⟩
  all_goals
    rw [hc', execute, ho]
    dsimp only
  · exact yields_setResult (Flat.toNat_add _ _) (ite_eq_toNat rfl)
  · exact yields_setResult (Flat.toNat_sub _ _) (ite_eq_toNat (hle _ _))
  · exact yields_setResult (Flat.toNat_sub _ _) (ite_eq_toNat (hle _ _))
  · rw [hs]
    exact yields_setResult (Flat.toNat_halve _) (emod_two_eq_toNat _)
  · rw [hs]
    exact yields_setResult (Flat.toNat_double _) (ediv_eq_toNat _)
  · exact UInt8.toNat_or _ _ ▸ c.yields_setBitwise i.x _
  · exact UInt8.toNat_and _ _ ▸ c.yields_setBitwise i.x _
  · exact UInt8.toNat_xor _ _ ▸ c.yields_setBitwise i.x _
  · refine ⟨?_, fun r hr => register_setRegister_of_ne hr _⟩
    rw [register_setRegister, if_pos rfl]
    exact (Flat.toNat_add_ofInt _ _).symm

/-- The flag register is added to itself, and is shifted into another register. -/
theorem operations_use_old_operands_of_flag_register :
    let c := (fresh .chip8 0).setRegister flag 0x85
    let add : Instruction := ⟨.addReg, [15, 15]⟩
    let shift : Instruction := ⟨.shr, [0, 15]⟩
    (add.opcode = .addReg ∧ c.Yields (c.execute add) flag 10 1) ∧
      shift.opcode = .shr ∧ c.Yields (c.execute shift) 0 0x42 1 := by
  intro c add shift
  have hregister : c.register flag = 0x85 := (register_setRegister _ flag flag _).trans (if_pos rfl)
  obtain ⟨hadd, -⟩ := c.operations_use_old_operands add
  obtain ⟨-, -, -, hshift, -⟩ := c.operations_use_old_operands shift
  have hsum := hadd rfl
  have hhalf := hshift rfl
  rw [show add.x = flag from rfl, show add.y = flag from rfl, hregister] at hsum
  rw [show c.dialect.shiftInPlace = false from rfl, if_neg Bool.false_ne_true,
    show shift.y = flag from rfl, hregister] at hhalf
  exact ⟨⟨rfl, hsum⟩, rfl, hhalf⟩

end Cpu

end ChipEight
