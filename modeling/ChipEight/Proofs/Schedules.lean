/-
However a program is run, by frames or by single steps, with breakpoints or without, it computes
the same, unless it reads the delay timer.

Main definitions:
* `Cpu.untimed`: the processor with its timers at zero;
* `Machine.TicksAfter`: the timers tick when more cycles are counted;
* `Machine.Control`: what steers a run;
* `Machine.executed`: the instructions that are executed on the way;
* `Machine.Operation.isPlay`: the operations of playing.

Main statements:
* `Cpu.Runs.of_untimed_eq`: processors that differ in their timers only make the same run;
* `Machine.after_trace`: playing does the same whether it is traced or not;
* `Machine.runs_control`: what one control executes;
* `Machine.untimed_steered`: what a sequence of controls executes, and what is left of it.
-/
import ChipEight.Proofs.Dependence
import ChipEight.Proofs.Frames
import ChipEight.Proofs.Invariants

namespace ChipEight

/-! ## Runs without timers -/

namespace Cpu

variable {c c' s s' t : Cpu} {i : Instruction} {is js : List Instruction}

/-- The processor with its timers at zero. -/
def untimed (c : Cpu) : Cpu :=
  { c with delay := 0, sound := 0 }

@[simp] theorem untimed_tickTimers (c : Cpu) : c.tickTimers.untimed = c.untimed := rfl

theorem untimed_eq_of_ticked (h : c' = c ∨ c' = c.tickTimers) : c'.untimed = c.untimed := by
  rcases h with rfl | rfl
  · rfl
  · exact untimed_tickTimers c

theorem fetch_eq_of_untimed_eq (h : c.untimed = c'.untimed) : c.fetch = c'.fetch := by
  show c.untimed.fetch = c'.untimed.fetch
  rw [h]

/-- An instruction that does not read the delay timer does the same whatever the timers are. -/
theorem perform_untimed (hi : i.opcode ≠ .ldFromDelay) (c : Cpu) :
    (c.untimed.perform i).untimed = (c.perform i).untimed := by
  have hexecute := execute_retuned (c := c.advance) (.refl c.dialect i.opcode)
    (fun ho => absurd ho hi) (t := 0) 0
  have hdialect : (c.perform i).dialect = c.dialect := dialect_execute i c.advance
  show ((c.advance.retuned c.dialect 0 0).execute i).untimed = _
  rw [hexecute, ← hdialect]
  rfl

theorem perform_congr_untimed (h : c.untimed = c'.untimed) (hi : i.opcode ≠ .ldFromDelay) :
    (c.perform i).untimed = (c'.perform i).untimed := by
  rw [← perform_untimed hi c, h, perform_untimed hi c']

/-- Processors that differ in their timers only make the same run. -/
theorem Runs.of_untimed_eq (h : s.Runs is t) (hs : s.untimed = s'.untimed)
    (his : ∀ i ∈ is, i.opcode ≠ .ldFromDelay) :
    ∃ t', s'.Runs is t' ∧ t.untimed = t'.untimed := by
  induction h with
  | nil => exact ⟨s', .nil, hs⟩
  | @cons is u i _ hi ih =>
    obtain ⟨u', hu', heq⟩ := ih fun j hj => his j (by simp [hj])
    rw [fetch_eq_of_untimed_eq heq] at hi
    exact ⟨u'.perform i, hu'.cons hi, perform_congr_untimed heq (his i (by simp))⟩

end Cpu

namespace Machine

/-! ## Controls -/

/-- What steers the run of a program. -/
inductive Control
  /-- Run a frame. -/
  | tick
  /-- Make a single step. -/
  | step
  /-- Leave a breakpoint. -/
  | resume
  /-- Set a breakpoint. -/
  | setBreakpoint (address : Int)
  /-- Remove a breakpoint. -/
  | removeBreakpoint (address : Int)

/-- The operation that the control is. -/
def Control.operation : Control → Operation
  | tick => .tick
  | step => .step
  | resume => .resume
  | setBreakpoint address => .setBreakpoint address
  | removeBreakpoint address => .removeBreakpoint address

/-- What a machine that is traced reports of the control. -/
def reports (s : Machine) : Control → List Event
  | .tick => (s.tick true).journal
  | .step => (s.stepInstruction true).journal
  | .resume | .setBreakpoint _ | .removeBreakpoint _ => []

@[simp] theorem reports_tick (s : Machine) : s.reports .tick = (s.tick true).journal := rfl

@[simp] theorem reports_step (s : Machine) :
    s.reports .step = (s.stepInstruction true).journal := rfl

/-- The machine after some controls, the first of them first. -/
def steered (trace : Bool) (s : Machine) (controls : List Control) : Machine :=
  s.after trace (controls.map Control.operation)

/-- The instructions that are executed under some controls, the latest first. -/
def executed (s : Machine) : List Control → List Instruction
  | [] => []
  | a :: controls => (s.steered true [a]).executed controls ++ executions (s.reports a)

variable {s : Machine} {trace : Bool} {a : Control} {controls controls' : List Control}

@[simp] theorem executed_nil : s.executed [] = [] := rfl

theorem executed_cons : s.executed (a :: controls) =
    (s.steered true [a]).executed controls ++ executions (s.reports a) := rfl

@[simp] theorem steered_tick : s.steered trace [.tick] = (s.tick trace).machine := rfl

@[simp] theorem steered_step : s.steered trace [.step] = (s.stepInstruction trace).machine := rfl

@[simp] theorem steered_resume : s.steered trace [.resume] = s.resume := rfl

@[simp] theorem steered_setBreakpoint {address : Int} :
    s.steered trace [.setBreakpoint address] = s.setBreakpoint address := rfl

theorem steered_cons :
    s.steered trace (a :: controls) = (s.steered trace [a]).steered trace controls := rfl

theorem steered_append :
    s.steered trace (controls ++ controls') = (s.steered trace controls).steered trace controls' := by
  simp [steered, after]

/-! ## One control -/

/-- The timers tick when `n` more cycles of single steps are counted. -/
def TicksAfter (s : Machine) (n : Int) : Prop :=
  s.budget ≠ 0 ∧ s.budget ≤ s.stepCycles + n

instance (s : Machine) (n : Int) : Decidable (s.TicksAfter n) :=
  inferInstanceAs (Decidable (_ ∧ _))

theorem countCycles_of_ticksAfter {n : Int} (h : s.TicksAfter n) (c : Cpu) :
    { s with cpu := c }.countCycles n =
      { s with cpu := c.tickTimers, stepCycles := s.stepCycles + n - s.budget } :=
  if_pos h

theorem countCycles_of_not_ticksAfter {n : Int} (h : ¬s.TicksAfter n) (c : Cpu) :
    { s with cpu := c }.countCycles n = { s with cpu := c, stepCycles := s.stepCycles + n } :=
  if_neg h

theorem cpu_countCycles (s : Machine) (n : Int) :
    (s.countCycles n).cpu = s.cpu ∨ (s.countCycles n).cpu = s.cpu.tickTimers := by
  by_cases h : s.TicksAfter n
  · exact .inr (congrArg cpu (countCycles_of_ticksAfter h s.cpu) :)
  · exact .inl (congrArg cpu (countCycles_of_not_ticksAfter h s.cpu) :)

@[simp] theorem untimed_countCycles (s : Machine) (n : Int) :
    (s.countCycles n).cpu.untimed = s.cpu.untimed :=
  Cpu.untimed_eq_of_ticked (s.cpu_countCycles n)

theorem tick_trace (s : Machine) (trace : Bool) :
    (s.tick trace).machine = (s.tick true).machine ∧
      (s.tick trace).result = (s.tick true).result := by
  obtain ⟨hcpu, hending⟩ := runCycles_trace trace s.breakpoints s.budget.toNat s.cpu [] []
  rw [tick, tick]
  generalize runCycles trace s.breakpoints s.budget.toNat s.cpu [] = frame at hcpu hending
  generalize runCycles true s.breakpoints s.budget.toNat s.cpu [] = frame' at hcpu hending
  obtain ⟨cpu, journal, ending⟩ := frame
  obtain ⟨cpu', journal', ending'⟩ := frame'
  obtain rfl : cpu = cpu' := hcpu
  obtain rfl : ending = ending' := hending
  split
  · cases ending <;> exact ⟨rfl, rfl⟩
  · exact ⟨rfl, rfl⟩

theorem stepInstruction_of_fetch {i : Instruction} (hi : s.cpu.fetch = .ok i) :
    s.stepInstruction trace =
      ⟨{ s with cpu := s.cpu.perform i }.countCycles ((s.cpu.cost i).cycles s.budget),
        s.cpu.stepNotices trace i, .ok ((s.cpu.cost i).cycles s.budget)⟩ := by
  rw [stepInstruction, stepCpu, hi]

theorem stepInstruction_of_fetch_error {e : InvalidOpcode} (he : s.cpu.fetch = .error e) :
    s.stepInstruction trace = ⟨s, [s.cpu.faultNotice], .error (.invalidOpcode e)⟩ := by
  rw [stepInstruction, stepCpu, he]

theorem stepInstruction_trace (s : Machine) (trace : Bool) :
    (s.stepInstruction trace).machine = (s.stepInstruction true).machine := by
  cases hi : s.cpu.fetch with
  | error e => rw [stepInstruction_of_fetch_error hi, stepInstruction_of_fetch_error hi]
  | ok i => rw [stepInstruction_of_fetch hi, stepInstruction_of_fetch hi]

/-! ## Playing with and without a trace -/

/-- The operation plays the program: nothing is loaded, reset or written. -/
def Operation.isPlay : Operation → Bool
  | .tick | .step | .resume | .setBreakpoint _ | .removeBreakpoint _ | .keyDown _ | .keyUp _ => true
  | .load _ | .reset _ | .line _ _ => false

theorem Control.isPlay_operation (a : Control) : a.operation.isPlay = true := by
  cases a <;> rfl

theorem apply_trace {o : Operation} (ho : o.isPlay = true) (trace : Bool) :
    s.apply trace o = s.apply true o := by
  cases o with
  | tick => exact (s.tick_trace trace).1
  | step => exact s.stepInstruction_trace trace
  | load | reset | line => cases ho
  | _ => rfl

theorem after_cons (trace : Bool) (s : Machine) (o : Operation) (history : List Operation) :
    s.after trace (o :: history) = (s.apply trace o).after trace history := rfl

/-- Playing does the same whether it is traced or not. -/
theorem after_trace {history : List Operation} (h : ∀ o ∈ history, o.isPlay = true)
    (trace : Bool) : s.after trace history = s.after true history := by
  induction history generalizing s with
  | nil => rfl
  | cons o history ih =>
    obtain ⟨ho, hrest⟩ := List.forall_mem_cons.1 h
    rw [after_cons, after_cons, apply_trace ho, ih hrest]

/-- Controls do the same whether they are traced or not. -/
theorem steered_trace (s : Machine) (trace : Bool) (controls : List Control) :
    s.steered trace controls = s.steered true controls := by
  refine after_trace (fun o ho => ?_) trace
  obtain ⟨a, -, rfl⟩ := List.mem_map.1 ho
  exact a.isPlay_operation

/-! ## What a control executes -/

/-- A frame makes the run that it reports, and no more than a tick of the timers follows. -/
theorem runs_tick (s : Machine) :
    ∃ c, s.cpu.Runs (executions (s.tick true).journal) c ∧
      ((s.tick true).machine.cpu = c ∨ (s.tick true).machine.cpu = c.tickTimers) := by
  have hnil : s.cpu.Runs (executions []) s.cpu := .nil
  have hrun := runs_runCycles s.breakpoints s.budget.toNat hnil
  rw [tick]
  generalize runCycles true s.breakpoints s.budget.toNat s.cpu [] = frame at hrun
  obtain ⟨cpu, journal, ending⟩ := frame
  split
  · cases ending with
    | complete => exact ⟨cpu, hrun, .inr rfl⟩
    | breakpoint | fault => exact ⟨cpu, hrun, .inl rfl⟩
  · exact ⟨s.cpu, .nil, .inl rfl⟩

/-- A single step makes the run that it reports, and no more than a tick of the timers follows. -/
theorem runs_stepInstruction (s : Machine) :
    ∃ c, s.cpu.Runs (executions (s.stepInstruction true).journal) c ∧
      ((s.stepInstruction true).machine.cpu = c ∨
        (s.stepInstruction true).machine.cpu = c.tickTimers) := by
  cases hi : s.cpu.fetch with
  | error e =>
    rw [stepInstruction_of_fetch_error hi]
    exact ⟨s.cpu, .nil, .inl rfl⟩
  | ok i =>
    have hreport : executions (s.cpu.stepNotices true i) = [i] := by
      simpa [executions] using executions_stepNotices s.cpu i []
    rw [stepInstruction_of_fetch hi, hreport]
    exact ⟨s.cpu.perform i, .cons .nil hi, cpu_countCycles _ _⟩

/-- A control makes the run that it reports, and otherwise changes no more than the timers. -/
theorem runs_control (s : Machine) (a : Control) :
    ∃ c, s.cpu.Runs (executions (s.reports a)) c ∧
      (s.steered true [a]).cpu.untimed = c.untimed := by
  cases a with
  | tick =>
    obtain ⟨c, hrun, hc⟩ := s.runs_tick
    exact ⟨c, hrun, Cpu.untimed_eq_of_ticked hc⟩
  | step =>
    obtain ⟨c, hrun, hc⟩ := s.runs_stepInstruction
    exact ⟨c, hrun, Cpu.untimed_eq_of_ticked hc⟩
  | resume | setBreakpoint | removeBreakpoint => exact ⟨s.cpu, .nil, rfl⟩

/-! ## Sequences of controls -/

/-- Controls make the run that they report, if it does not read the delay timer, and otherwise
change no more than the timers. -/
theorem runs_steered (s : Machine) (controls : List Control)
    (h : ∀ i ∈ s.executed controls, i.opcode ≠ .ldFromDelay) :
    ∃ c, s.cpu.Runs (s.executed controls) c ∧
      (s.steered true controls).cpu.untimed = c.untimed := by
  induction controls generalizing s with
  | nil => exact ⟨s.cpu, .nil, rfl⟩
  | cons a controls ih =>
    obtain ⟨c, hc, hca⟩ := s.runs_control a
    obtain ⟨t, ht, hafter⟩ := ih (s.steered true [a]) fun i hi => h i (by simp [executed_cons, hi])
    -- The rest is run from the processor that the steps have led to.
    obtain ⟨t', ht', heq⟩ := ht.of_untimed_eq hca fun i hi => h i (by simp [executed_cons, hi])
    refine ⟨t', hc.append ht', ?_⟩
    rw [steered_cons, hafter, heq]

/-- Steering a run neither loses nor repeats an instruction: if the program does not read the delay
timer, the processor is the one after so many plain steps, apart from the timers. -/
theorem untimed_steered (s : Machine) (trace : Bool) (controls : List Control)
    (h : ∀ i ∈ s.executed controls, i.opcode ≠ .ldFromDelay) :
    ∃ c, s.cpu.Runs (s.executed controls) c ∧
      s.cpu.iterate (s.executed controls).length = .ok c ∧
      (s.steered trace controls).cpu.untimed = c.untimed := by
  obtain ⟨c, hc, hafter⟩ := s.runs_steered controls h
  rw [steered_trace]
  exact ⟨c, hc, hc.iterate_eq, hafter⟩

/-- A loop that is left at a breakpoint, resumed, left there again and stepped. -/
theorem untimed_steered_around_loop :
    let s := { fresh .chip8 54000 0 with program := [0x70, 0x01, 0x12, 0x00] }.reset none
    let controls : List Control := [.setBreakpoint 0x202, .tick, .resume, .tick, .step]
    (∀ i ∈ s.executed controls, i.opcode ≠ .ldFromDelay) ∧
      ∃ c, s.cpu.iterate 4 = .ok c ∧ (s.steered false controls).cpu.untimed = c.untimed := by
  intro s controls
  let add : Instruction := ⟨.addByte, [0, 1]⟩
  let jump : Instruction := ⟨.jp, [0x200]⟩
  have hadd : ∀ c : Cpu, c.memory = s.cpu.memory → c.pc = 0x200 → c.fetch = .ok add :=
    fun c hm hpc => fetch_of_program (k := 0) [0x70, 0x01, 0x12, 0x00] hm rfl (by decide) hpc
      (by decide) rfl
  have hjump : ∀ c : Cpu, c.memory = s.cpu.memory → c.pc = 0x202 → c.fetch = .ok jump :=
    fun c hm hpc => fetch_of_program (k := 2) [0x70, 0x01, 0x12, 0x00] hm rfl (by decide) hpc
      (by decide) rfl
  let c₁ := s.cpu.perform add
  let c₂ := c₁.perform jump
  let c₃ := c₂.perform add
  let s₁ := s.setBreakpoint 0x202
  let s₂ := { s₁ with cpu := c₁, halted := true }
  let s₃ := { s₁ with cpu := c₃, halted := true }
  have hfirst : s₁.tick true = _ := tick_of_breakpoint rfl <|
    runCycles_of_breakpoint (by decide) rfl (hadd s₁.cpu rfl rfl) (by decide)
  have hsecond : s₂.resume.tick true = _ := tick_of_breakpoint rfl <| by
    rw [runCycles_of_fetch (by decide) rfl (hjump s₂.resume.cpu rfl rfl) (by decide)]
    exact runCycles_of_breakpoint (by decide) rfl (hadd c₂ rfl rfl) (by decide)
  have hthird : s₃.stepInstruction true = _ := stepInstruction_of_fetch (hjump c₃ rfl rfl)
  have hstart : s.steered true [.setBreakpoint 0x202] = s₁ := steered_setBreakpoint
  have hhalts : s₁.steered true [.tick] = s₂ :=
    steered_tick.trans (congrArg Outcome.machine hfirst)
  have hhaltsAgain : s₂.resume.steered true [.tick] = s₃ :=
    steered_tick.trans (congrArg Outcome.machine hsecond)
  have hexecuted : s.executed controls = [jump, add, jump, add] := by
    rw [executed_cons, executed_cons, executed_cons, executed_cons, executed_cons, executed_nil]
    rw [hstart, hhalts, steered_resume, hhaltsAgain]
    rw [reports_tick, reports_tick, reports_step, hfirst, hsecond, hthird]
    rfl
  have hreads : ∀ i ∈ s.executed controls, i.opcode ≠ .ldFromDelay := by
    rw [hexecuted]
    decide
  obtain ⟨c, -, hc, hafter⟩ := untimed_steered s false controls hreads
  rw [hexecuted] at hc
  exact ⟨hreads, c, hc, hafter⟩

end Machine

end ChipEight
