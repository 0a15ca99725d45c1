/-
Machines stay in order, and a machine in order never reaches outside its registers, cells, slots,
keys or pixels.

Main statements:
* `Machine.wellFormed_after`: a machine is in order after any history;
* `Flat.step_of_wellFormed`: a step of anything that is in order succeeds and leaves it in order,
  or the word at the program counter is no instruction;
* `Machine.wellFormed_and_faultless`: both of these, and that the checked steps are the steps of
  the processor.
-/
import ChipEight.Proofs.Flat.Step

namespace ChipEight

/-- A step of what is in order succeeds and leaves it in order, or the word at the program counter
is no instruction. -/
theorem Flat.step_of_wellFormed {f : Flat} (h : f.WellFormed) :
    (∃ cost f', f.step = .ok (cost, f') ∧ f'.WellFormed) ∨
      ∃ word, f.read16 f.pc = .ok word ∧ (∃ e, Instruction.decode word = .error e) ∧
        f.step = .error (.invalidOpcode ⟨word, some f.pc⟩) := by
  obtain ⟨c, hc, rfl⟩ := exists_eq_flat h
  have hstep := step_flat hc
  cases hs : c.step with
  | ok r =>
    obtain ⟨cost, c'⟩ := r
    rw [hs] at hstep
    refine .inl ⟨cost, c'.flat, hstep, ?_⟩
    obtain ⟨i, hf, rfl⟩ := Cpu.exists_of_step_eq_ok hs
    rw [Cpu.wellFormed_flat_iff]
    exact hc.perform hf
  | error e =>
    rw [hs] at hstep
    obtain ⟨hd, rfl⟩ := Cpu.step_eq_error_iff.1 hs
    exact .inr ⟨c.word, read16_flat c.pc, hd, hstep⟩

namespace Machine

/-- The machine is in order: its processor is, and its breakpoints are addresses. -/
structure WellFormed (s : Machine) : Prop where
  cpu : s.cpu.flat.WellFormed
  breakpoints : ∀ a ∈ s.breakpoints, IsAddress a

theorem wellFormed_iff {s : Machine} : s.WellFormed ↔ s.InRange := by
  constructor
  · intro h
    exact ⟨Cpu.wellFormed_flat_iff.1 h.cpu, h.breakpoints⟩
  · intro h
    exact ⟨Cpu.wellFormed_flat_iff.2 h.cpu, h.breakpoints⟩

/-- A machine in order stays in order. -/
theorem WellFormed.after {s : Machine} (h : s.WellFormed) (trace : Bool)
    (history : List Operation) : (s.after trace history).WellFormed :=
  wellFormed_iff.2 (invariant_inRange.after trace history (wellFormed_iff.1 h))

/-- A machine is in order after any history. -/
theorem wellFormed_after (trace : Bool) (dialect : Dialect) (clock seed : Int)
    (history : List Operation) : ((fresh dialect clock seed).after trace history).WellFormed :=
  (wellFormed_iff.2 (inRange_fresh dialect clock seed)).after trace history

/-- Every history of a fresh machine leaves it in order; whatever is in order makes a step and is
in order after it, unless the word at its program counter is no instruction; and the steps whose
lookups are all checked are the steps of the processor. -/
theorem wellFormed_and_faultless :
    (∀ (trace : Bool) (dialect : Dialect) (clock seed : Int) (history : List Operation),
      ((fresh dialect clock seed).after trace history).WellFormed) ∧
    (∀ f : Flat, f.WellFormed →
      (∃ cost f', f.step = .ok (cost, f') ∧ f'.WellFormed) ∨
        ∃ word, f.read16 f.pc = .ok word ∧ (∃ e, Instruction.decode word = .error e) ∧
          f.step = .error (.invalidOpcode ⟨word, some f.pc⟩)) ∧
    ∀ c : Cpu, c.flat.WellFormed →
      c.flat.step = match c.step with
        | .ok (cost, c') => .ok (cost, c'.flat)
        | .error e => .error (.invalidOpcode e) := by
  refine ⟨wellFormed_after, fun f h => Flat.step_of_wellFormed h, fun c h => ?_⟩
  exact Flat.step_flat (Cpu.wellFormed_flat_iff.1 h)

/-- The machine after a program is loaded, a frame is run, and registers, breakpoints and keys are
set to numbers out of their ranges. -/
theorem wellFormed_and_faultless_of_history :
    let history : List Operation := [.load [0xD0, 0x10], .line ⟨[]⟩ "setreg v1 0xFF".toList, .tick,
      .setBreakpoint (-1), .keyDown 21, .reset none, .line ⟨[]⟩ "setreg pc -2".toList]
    let f := ((fresh .superchip 1000000 7).after false history).cpu.flat
    f.WellFormed ∧
      ((∃ cost f', f.step = .ok (cost, f') ∧ f'.WellFormed) ∨
        ∃ word, f.read16 f.pc = .ok word ∧ (∃ e, Instruction.decode word = .error e) ∧
          f.step = .error (.invalidOpcode ⟨word, some f.pc⟩)) := by
  intro history f
  have h : f.WellFormed := (wellFormed_and_faultless.1 false .superchip 1000000 7 history).cpu
  exact ⟨h, wellFormed_and_faultless.2.1 f h⟩

end Machine

end ChipEight
