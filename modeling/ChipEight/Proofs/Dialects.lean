/-
A processor does the same under two dialects until it comes to an instruction that a flag concerns
in which they differ.

Main definitions:
* `Cpu.withDialect`: the processor with another dialect.

Main statements:
* `Cpu.perform_withDialect`, `Cpu.cost_withDialect`: what one instruction does and how long it takes
  under another dialect;
* `Cpu.iterate_withDialect`: what any number of steps do.
-/
import ChipEight.Proofs.Dependence
import ChipEight.Proofs.Executions
import ChipEight.Proofs.Programs

namespace ChipEight.Cpu

variable {c s : Cpu} {d : Dialect} {i : Instruction} {n : Nat}

/-! ## One instruction -/

/-- The processor with another dialect. -/
def withDialect (c : Cpu) (d : Dialect) : Cpu :=
  { c with dialect := d }

theorem perform_withDialect (h : d.AgreeOn c.dialect i.opcode) :
    (c.withDialect d).perform i = (c.perform i).withDialect d := by
  have hexecute := execute_retuned (c := c.advance) h (fun _ => rfl) c.advance.sound
  rw [← delay_execute, ← sound_execute] at hexecute
  exact hexecute

theorem cost_withDialect (h : i.opcode = .drw → d.displayWait = c.dialect.displayWait) :
    (c.withDialect d).cost i = c.cost i := by
  have hwait : i.opcode = .drw ∧ d.displayWait = true ↔
      i.opcode = .drw ∧ c.dialect.displayWait = true :=
    and_congr_right fun ho => by rw [h ho]
  rw [cost, cost]
  exact ite_congr (propext hwait) (fun _ => rfl) (fun _ => rfl)

/-! ## Runs -/

/-- No step changes the dialect. -/
theorem dialect_of_iterate (h : c.iterate n = .ok s) : s.dialect = c.dialect := by
  induction n generalizing s with
  | zero =>
    cases h
    rfl
  | succ n ih =>
    obtain ⟨t, i, ht, -, rfl⟩ := exists_of_iterate_succ h
    rw [← ih ht]
    exact dialect_execute i t.advance

/-- As long as no flag in which the dialects differ concerns an instruction that is executed, the
processors are the same but for their dialects after every number of steps, or have met the same
invalid word; and a step takes the same time under both, unless it is to draw and the dialects
differ in whether that is to wait. -/
theorem iterate_withDialect (c : Cpu) (d : Dialect) (n : Nat)
    (h : ∀ k < n, ∀ s i, c.iterate k = .ok s → s.fetch = .ok i → d.AgreeOn c.dialect i.opcode) :
    (∀ k ≤ n, (c.withDialect d).iterate k = (c.iterate k).map (·.withDialect d)) ∧
      ∀ k < n, ∀ s i, c.iterate k = .ok s → s.fetch = .ok i →
        ∃ cost cost', s.step = .ok (cost, s.perform i) ∧
          (s.withDialect d).step = .ok (cost', (s.perform i).withDialect d) ∧
          (¬(i.opcode = .drw ∧ d.displayWait ≠ c.dialect.displayWait) → cost' = cost) := by
  refine ⟨fun k hk => ?_, fun k hk s i hs hi => ?_⟩
  · induction k with
    | zero => rfl
    | succ k ih =>
      have ih := ih (by omega)
      cases hs : c.iterate k with
      | error e =>
        rw [hs] at ih
        rw [iterate_succ_of_error hs, iterate_succ_of_error ih]
        rfl
      | ok s =>
        rw [hs] at ih
        cases hi : s.fetch with
        | error e =>
          rw [iterate_succ_of_fetch_error hs hi, iterate_succ_of_fetch_error ih hi]
          rfl
        | ok i =>
          have hagree := h k (by omega) s i hs hi
          rw [← dialect_of_iterate hs] at hagree
          rw [iterate_succ_of_fetch hs hi, iterate_succ_of_fetch ih hi]
          exact congrArg Except.ok (perform_withDialect hagree)
  · have hagree := h k hk s i hs hi
    rw [← dialect_of_iterate hs] at hagree
    refine ⟨s.cost i, (s.withDialect d).cost i, step_of_fetch hi, ?_, fun hwait => ?_⟩
    · rw [step_of_fetch (c := s.withDialect d) hi, perform_withDialect hagree]
    · refine cost_withDialect fun ho => ?_
      rw [dialect_of_iterate hs]
      exact Decidable.byContradiction fun hne => hwait ⟨ho, hne⟩

/-- A program that sets a register and then draws does the same under two dialects, although
drawing takes a frame under one of them. -/
theorem iterate_withDialect_until_draw :
    let c := ({ Machine.fresh .chip8 0 0 with program := [0x60, 0x05, 0xD0, 0x01] }.reset none).cpu
    (∀ k < 2, ∀ s i, c.iterate k = .ok s → s.fetch = .ok i →
      Dialect.superchip.AgreeOn c.dialect i.opcode) ∧
    ∃ s, c.iterate 2 = .ok s ∧
      (c.withDialect .superchip).iterate 2 = .ok (s.withDialect .superchip) := by
  intro c
  have hfirst : c.fetch = .ok ⟨.ldByte, [0, 5]⟩ :=
    Machine.fetch_of_program (k := 0) [0x60, 0x05, 0xD0, 0x01] rfl rfl (by decide) rfl (by decide) rfl
  have hsecond : (c.perform ⟨.ldByte, [0, 5]⟩).fetch = .ok ⟨.drw, [0, 0, 1]⟩ :=
    Machine.fetch_of_program (k := 2) [0x60, 0x05, 0xD0, 0x01] rfl rfl (by decide) rfl (by decide) rfl
  have hone : c.iterate 1 = .ok (c.perform ⟨.ldByte, [0, 5]⟩) :=
    iterate_succ_of_fetch (n := 0) rfl hfirst
  have htwo := iterate_succ_of_fetch hone hsecond
  have hagree : ∀ k < 2, ∀ s i, c.iterate k = .ok s → s.fetch = .ok i →
      Dialect.superchip.AgreeOn c.dialect i.opcode := by
    intro k hk s i hs hi
    rcases k with - | k
    · cases hs
      rw [hfirst] at hi
      cases hi
      decide
    · obtain rfl : k = 0 := by omega
      rw [hone] at hs
      cases hs
      rw [hsecond] at hi
      cases hi
      decide
  refine ⟨hagree, _, htwo, ?_⟩
  rw [(iterate_withDialect c .superchip 2 hagree).1 2 (Nat.le_refl 2), htwo]
  rfl

end ChipEight.Cpu
