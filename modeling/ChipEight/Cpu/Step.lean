/-
Steps of the processor: fetch an instruction, move on, execute it.

Main statements:
* `step_eq_error_iff`: a step fails exactly if the word at the program counter is no instruction;
* `step_of_fetch`, `exists_of_step_eq_ok`: otherwise it executes that instruction with the program
  counter moved on.
-/
import ChipEight.Cpu.Execute
import ChipEight.Instruction.Encoding
import ChipEight.Journal

namespace ChipEight

/-- How long an instruction takes. -/
inductive Cost
  /-- The cycles of an instruction. -/
  | instruction
  /-- All that is left of the frame. -/
  | restOfFrame
  deriving DecidableEq, Repr

namespace Cost

/-- The cycles of an instruction. -/
def perInstruction : Nat := 8

/-- The cycles that are counted, where a frame has `budget` cycles. -/
def cycles (budget : Int) : Cost → Int
  | instruction => perInstruction
  | restOfFrame => budget

/-- The cycles of a frame that are left after the instruction. -/
def left (cycles : Nat) : Cost → Nat
  | instruction => cycles - perInstruction
  | restOfFrame => 0

theorem left_lt {cycles : Nat} (h : 0 < cycles) (c : Cost) : c.left cycles < cycles := by
  cases c <;> simp only [left, perInstruction] <;> omega

end Cost

namespace Cpu

/-- The instruction at the program counter. -/
def fetch (c : Cpu) : Except InvalidOpcode Instruction :=
  match Instruction.decode c.word with
  | .ok i => .ok i
  | .error _ => .error ⟨c.word, some c.pc⟩

/-- How long the processor takes for an instruction. -/
def cost (c : Cpu) (i : Instruction) : Cost :=
  if i.opcode = .drw ∧ c.dialect.displayWait then .restOfFrame else .instruction

/-- The processor after it has moved on and executed an instruction. -/
def perform (i : Instruction) (c : Cpu) : Cpu :=
  execute i c.advance

/-- One step: its cost and the processor after it. -/
def step (c : Cpu) : Except InvalidOpcode (Cost × Cpu) :=
  match c.fetch with
  | .ok i => .ok (c.cost i, c.perform i)
  | .error e => .error e

theorem step_of_fetch {c : Cpu} {i : Instruction} (h : c.fetch = .ok i) :
    c.step = .ok (c.cost i, c.perform i) := by
  rw [step, h]

theorem exists_of_step_eq_ok {c c' : Cpu} {cost : Cost} (h : c.step = .ok (cost, c')) :
    ∃ i, c.fetch = .ok i ∧ c' = c.perform i := by
  cases hi : c.fetch with
  | ok i =>
    rw [step_of_fetch hi] at h
    cases h
    exact ⟨i, rfl, rfl⟩
  | error e =>
    rw [step, hi] at h
    cases h

theorem step_eq_error_iff {c : Cpu} {e : InvalidOpcode} :
    c.step = .error e ↔
      (∃ e', Instruction.decode c.word = .error e') ∧ e = ⟨c.word, some c.pc⟩ := by
  unfold step fetch
  cases Instruction.decode c.word <;> simp [eq_comm]

/-! ## Reports -/

/-- What a status line shows. -/
def status (c : Cpu) : Status :=
  ⟨c.pc, c.index, c.delay, c.sound, c.stack.length⟩

/-- What is reported when an instruction is executed. -/
def notices (c : Cpu) (i : Instruction) : List Event :=
  if i.opcode = .jp ∧ c.isSelfJump i.nnn then [.selfJump i.nnn] else []

/-- What is reported when an instruction that was fetched is performed, the latest first, with
the instruction itself if a trace is wanted. -/
def stepNotices (trace : Bool) (c : Cpu) (i : Instruction) : List Event :=
  c.advance.notices i ++ if trace then [.executing c.status i] else []

/-- What is reported when a word is no instruction. -/
def faultNotice (c : Cpu) : Event :=
  .invalidOpcode c.word c.pc

end Cpu

end ChipEight
