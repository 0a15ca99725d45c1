/-
Executions: the instructions of which a run of the processor consists.

A run is a list of instructions, the latest first, as a journal has them: a machine that is traced
reports every instruction that it executes.

Main definitions:
* `Cpu.iterate`: the processor after some steps;
* `Cpu.Runs`: the steps from one processor to another execute the given instructions;
* `executions`: the instructions that a journal reports.

Main statements:
* `Cpu.Runs.iterate_eq`: a run has as many steps as instructions;
* `Machine.runs_runCycles`: the journal of a frame reports the run that the frame makes;
* `Machine.runCycles_trace`: a frame does the same whether it is traced or not.
-/
import ChipEight.Machine.Run

namespace ChipEight

/-! ## Runs -/

namespace Cpu

/-- The processor after some steps. -/
def iterate (c : Cpu) : Nat → Except InvalidOpcode Cpu
  | 0 => .ok c
  | n + 1 => do
    let s ← c.iterate n
    let (_, s') ← s.step
    return s'

/-- The steps from `c` to another processor execute the instructions, of which the latest comes
first. -/
inductive Runs (c : Cpu) : List Instruction → Cpu → Prop
  | nil : Runs c [] c
  | cons {is : List Instruction} {s : Cpu} {i : Instruction} :
    Runs c is s → s.fetch = .ok i → Runs c (i :: is) (s.perform i)

variable {c s t : Cpu} {i : Instruction} {is js : List Instruction} {e : InvalidOpcode} {n : Nat}

theorem iterate_succ_of_fetch (h : c.iterate n = .ok s) (hi : s.fetch = .ok i) :
    c.iterate (n + 1) = .ok (s.perform i) := by
  rw [iterate, h]
  change (s.step >>= _) = _
  rw [step_of_fetch hi]
  rfl

theorem iterate_succ_of_fetch_error (h : c.iterate n = .ok s) (he : s.fetch = .error e) :
    c.iterate (n + 1) = .error e := by
  rw [iterate, h]
  change (s.step >>= _) = _
  rw [step, he]
  rfl

theorem iterate_succ_of_error (h : c.iterate n = .error e) : c.iterate (n + 1) = .error e := by
  rw [iterate, h]
  rfl

theorem exists_of_iterate_succ (h : c.iterate (n + 1) = .ok t) :
    ∃ s i, c.iterate n = .ok s ∧ s.fetch = .ok i ∧ t = s.perform i := by
  cases hs : c.iterate n with
  | error e =>
    rw [iterate_succ_of_error hs] at h
    cases h
  | ok s =>
    cases hi : s.fetch with
    | error e =>
      rw [iterate_succ_of_fetch_error hs hi] at h
      cases h
    | ok i =>
      rw [iterate_succ_of_fetch hs hi] at h
      cases h
      exact ⟨s, i, rfl, hi, rfl⟩

/-- A run has as many steps as instructions. -/
theorem Runs.iterate_eq (h : c.Runs is s) : c.iterate is.length = .ok s := by
  induction h with
  | nil => rfl
  | cons _ hi ih => exact iterate_succ_of_fetch ih hi

theorem Runs.append (h : c.Runs is s) (h' : s.Runs js t) : c.Runs (js ++ is) t := by
  induction h' with
  | nil => exact h
  | cons _ hi ih => exact ih.cons hi

end Cpu

/-! ## Journals -/

/-- The instruction whose execution is reported. -/
def Event.instruction? : Event → Option Instruction
  | .executing _ i => some i
  | _ => none

/-- The instructions that the journal of a trace reports. -/
def executions (journal : List Event) : List Instruction :=
  journal.filterMap Event.instruction?

theorem executions_append (journal journal' : List Event) :
    executions (journal ++ journal') = executions journal ++ executions journal' :=
  List.filterMap_append

@[simp] theorem executions_faultNotice (c : Cpu) (journal : List Event) :
    executions (c.faultNotice :: journal) = executions journal := rfl

@[simp] theorem executions_breakpoint (a : Int) (journal : List Event) :
    executions (.breakpoint a :: journal) = executions journal := rfl

/-- The trace of a step reports the instruction. -/
@[simp] theorem executions_stepNotices (c : Cpu) (i : Instruction) (journal : List Event) :
    executions (c.stepNotices true i ++ journal) = i :: executions journal := by
  have hnotices : executions (c.advance.notices i) = [] := by
    rw [Cpu.notices]
    split <;> rfl
  rw [Cpu.stepNotices, executions_append, executions_append, hnotices]
  rfl

namespace Machine

variable {trace : Bool} {c cpu : Cpu} {i : Instruction} {breakpoints : Breakpoints} {left : Nat}
  {journal journal' : List Event}

/-! ## The loop of a frame, step by step -/

theorem runCycles_zero :
    runCycles trace breakpoints 0 cpu journal = ⟨cpu, journal, .complete⟩ := by
  rw [runCycles, dif_neg (by simp)]

theorem runCycles_of_fetch (hl : 0 < left) (hr : cpu.running = true) (hi : cpu.fetch = .ok i)
    (hpc : (cpu.perform i).pc ∉ breakpoints) :
    runCycles trace breakpoints left cpu journal =
      runCycles trace breakpoints ((cpu.cost i).left left) (cpu.perform i)
        (cpu.stepNotices trace i ++ journal) := by
  rw [runCycles.eq_def trace breakpoints left, dif_pos ⟨hl, hr⟩, hi]
  exact if_neg hpc

theorem runCycles_of_breakpoint (hl : 0 < left) (hr : cpu.running = true)
    (hi : cpu.fetch = .ok i) (hpc : (cpu.perform i).pc ∈ breakpoints) :
    runCycles trace breakpoints left cpu journal =
      ⟨cpu.perform i, .breakpoint (cpu.perform i).pc :: (cpu.stepNotices trace i ++ journal),
        .breakpoint⟩ := by
  rw [runCycles.eq_def, dif_pos ⟨hl, hr⟩, hi]
  exact if_pos hpc

theorem tick_of_complete {s : Machine} (hl : s.isLive = true)
    (h : runCycles trace s.breakpoints s.budget.toNat s.cpu [] = ⟨cpu, journal, .complete⟩) :
    s.tick trace = ⟨{ s with cpu := cpu.tickTimers }, journal, .ok ()⟩ := by
  rw [tick, if_pos hl, h]

theorem tick_of_breakpoint {s : Machine} (hl : s.isLive = true)
    (h : runCycles trace s.breakpoints s.budget.toNat s.cpu [] = ⟨cpu, journal, .breakpoint⟩) :
    s.tick trace = ⟨{ s with cpu, halted := true }, journal, .ok ()⟩ := by
  rw [tick, if_pos hl, h]

/-- The journal of a frame that is traced reports the run that the frame makes. -/
theorem runs_runCycles (breakpoints : Breakpoints) (left : Nat)
    (h : c.Runs (executions journal) cpu) :
    c.Runs (executions (runCycles true breakpoints left cpu journal).journal)
      (runCycles true breakpoints left cpu journal).cpu := by
  fun_induction runCycles true breakpoints left cpu journal with
  | case1 => exact h
  | case2 left cpu journal _ i hi =>
    rw [executions_breakpoint, executions_stepNotices]
    exact h.cons hi
  | case3 left cpu journal _ i hi _ _ _ _ ih =>
    refine ih ?_
    rw [executions_stepNotices]
    exact h.cons hi
  | case4 => exact h

/-- A frame does the same whether it is traced or not. -/
theorem runCycles_trace (trace : Bool) (breakpoints : Breakpoints) (left : Nat) (cpu : Cpu)
    (journal journal' : List Event) :
    (runCycles trace breakpoints left cpu journal).cpu =
        (runCycles true breakpoints left cpu journal').cpu ∧
      (runCycles trace breakpoints left cpu journal).ending =
        (runCycles true breakpoints left cpu journal').ending := by
  fun_induction runCycles trace breakpoints left cpu journal generalizing journal' with
  | case1 left cpu journal h e he =>
    rw [runCycles, dif_pos h, he]
    exact ⟨rfl, rfl⟩
  | case2 left cpu journal h i hi =>
    rename_i hbreak
    rw [runCycles_of_breakpoint h.1 h.2 hi hbreak]
    exact ⟨rfl, rfl⟩
  | case3 left cpu journal h i hi =>
    rename_i hbreak ih
    rw [runCycles_of_fetch h.1 h.2 hi hbreak]
    exact ih _
  | case4 left cpu journal h =>
    rw [runCycles, dif_neg h]
    exact ⟨rfl, rfl⟩

end Machine

end ChipEight
