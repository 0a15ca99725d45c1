/-
Stopping.

A program stops at an instruction that says so and at a jump to the address that it stands at, and
nowhere else.  Nothing that runs a program starts it again: a machine whose program has stopped can
be driven on with its processor left as it is.

Main definitions:
* `Instruction.StopsAt`: the instructions at which a program stops;
* `Machine.Drive`: what drives a machine on.

Main statements:
* `Cpu.running_perform_iff`: which steps stop a program;
* `Cpu.not_running_iterate`: a program that has stopped stays so;
* `Machine.cpu_driven`: driving on a machine whose program has stopped changes nothing in its
  processor;
* `Machine.stops_exactly_and_finally`: all of these.
-/
import ChipEight.Proofs.Executions
import ChipEight.Proofs.Programs
import ChipEight.Proofs.WellFormed

namespace ChipEight

/-! ## Instructions -/

/-- The program stops when it executes the instruction at the address. -/
def Instruction.StopsAt (i : Instruction) (address : Int) : Prop :=
  i.opcode = .exit ∨ i.opcode = .jp ∧ i.nnn = address

namespace Cpu

variable {c s : Cpu} {i : Instruction}

theorem running_skipIf (c : Cpu) (condition : Bool) : (c.skipIf condition).running = c.running := by
  rw [skipIf]
  split <;> rfl

theorem running_setBitwise (c : Cpu) (x : Fin 16) (b : UInt8) :
    (c.setBitwise x b).running = c.running := by
  obtain ⟨registers, h⟩ := exists_setBitwise_eq c x b
  rw [h]

theorem running_passBlock (c : Cpu) (last : Int) : (c.passBlock last).running = c.running := by
  rw [passBlock]
  split <;> rfl

theorem running_setBlock (c : Cpu) (k : Nat) (s : List UInt8) :
    (c.setBlock k s).running = c.running := by
  obtain ⟨registers, h⟩ := exists_setBlock_eq c k s
  rw [h]

theorem running_drawSprite (c : Cpu) (x y : Fin 16) (height : Int) :
    (c.drawSprite x y height).running = c.running := by
  obtain ⟨screen, b, -, h⟩ := exists_drawSprite_eq c x y height
  rw [h, setRegister]

theorem running_awaitKey (c : Cpu) (x : Fin 16) : (c.awaitKey x).running = c.running := by
  rw [awaitKey]
  split <;> rfl

/-- Only two instructions touch the flag that tells whether the program has stopped. -/
theorem running_execute (i : Instruction) (c : Cpu) :
    (c.execute i).running = match i.opcode with
      | .exit => false
      | .jp => c.running && !c.isSelfJump i.nnn
      | _ => c.running := by
  rw [execute]
  cases i.opcode with
  | seByte | sneByte | seReg | sneReg | skp | sknp => exact running_skipIf _ _
  | or | and | xor => exact running_setBitwise _ _ _
  | drw => exact running_drawSprite _ _ _ _
  | ldKey => exact running_awaitKey _ _
  | store => exact running_passBlock _ _
  | fetch => exact (running_passBlock _ _).trans (running_setBlock _ _ _)
  | restore => exact running_setBlock _ _ _
  | _ => rfl

/-- For a processor in range, a jump that leads back to itself once the program counter has moved
on is a jump to the program counter. -/
theorem isSelfJump_advance (hc : IsAddress c.pc) (hi : i.Admitted) :
    c.advance.isSelfJump i.nnn = true ↔ i.nnn = c.pc := by
  obtain ⟨hlow, hhigh⟩ := hc
  obtain ⟨hleast, hmost⟩ := hi.nnn
  have hpc : c.advance.pc = (c.pc + 2) % 65536 := rfl
  rw [isSelfJump, beq_iff_eq, hpc, address16]
  omega

/-- A step stops a program exactly if its instruction is one at which programs stop. -/
theorem running_perform_iff (hc : IsAddress c.pc) (hr : c.running = true) (hi : c.fetch = .ok i) :
    (c.perform i).running = false ↔ i.StopsAt c.pc := by
  have hself := isSelfJump_advance hc (admitted_of_fetch hi)
  have hadvance : c.advance.running = true := hr
  rw [perform, running_execute, Instruction.StopsAt]
  split
  · rename_i hexit
    exact iff_of_true rfl (.inl hexit)
  · rename_i hjp
    rw [hadvance, Bool.true_and, Bool.not_eq_false', hself, hjp]
    simp
  · rename_i hexit hjp
    rw [hadvance]
    refine iff_of_false (by simp) ?_
    rintro (h | ⟨h, -⟩)
    · exact hexit h
    · exact hjp h

/-- A program that has stopped does not start again at an instruction. -/
theorem not_running_perform (hr : c.running = false) : (c.perform i).running = false := by
  have hadvance : c.advance.running = false := hr
  rw [perform, running_execute, hadvance]
  split <;> rfl

/-- A program that has stopped stays so, however many steps are made. -/
theorem not_running_iterate {n : Nat} (hr : c.running = false) (h : c.iterate n = .ok s) :
    s.running = false := by
  induction n generalizing s with
  | zero =>
    cases h
    exact hr
  | succ n ih =>
    obtain ⟨t, i, ht, -, rfl⟩ := exists_of_iterate_succ h
    exact not_running_perform (ih ht)

/-- Steps keep the ranges. -/
theorem InRange.iterate {n : Nat} (hc : c.InRange) (h : c.iterate n = .ok s) : s.InRange := by
  induction n generalizing s with
  | zero =>
    cases h
    exact hc
  | succ n ih =>
    obtain ⟨t, i, ht, hi, rfl⟩ := exists_of_iterate_succ h
    exact (ih ht).perform hi

end Cpu

namespace Machine

variable {s : Machine} {trace : Bool}

/-! ## Machines -/

/-- What runs are made of does not start a program that has stopped. -/
theorem kept_not_running : Kept fun s => s.cpu.running = false where
  perform _ h := Cpu.not_running_perform h
  tickTimers h := h
  halted _ h := h
  stepCycles _ h := h

theorem isLive_of_not_running (h : s.cpu.running = false) : s.isLive = false := by
  rw [isLive, h, Bool.false_and]

theorem runUntilStopped_of_not_running (h : s.cpu.running = false) (most : Int) :
    (s.runUntilStopped trace most).machine = s := by
  rw [runUntilStopped]
  cases most.toNat with
  | zero => rfl
  | succ left =>
    rw [runUntilStoppedFrom, tick_of_not_isLive (isLive_of_not_running h)]
    dsimp only
    rw [h, if_neg Bool.false_ne_true]

end Machine

namespace Monitor

/-- The commands that run a program, or only let it go on. -/
def Verb.drives : Verb → Bool
  | .step | .tick | .run | .resume | .proceed => true
  | _ => false

variable {c : Console} {cpu : Cpu} {trace : Bool}

theorem cpu_steps (hc : c.machine.cpu = cpu) (h : cpu.running = false) (count : Nat) :
    (steps trace c count).machine.cpu = cpu := by
  cases count with
  | zero => exact hc
  | succ count =>
    rw [steps, hc, h, if_neg Bool.false_ne_true]
    exact hc

theorem cpu_runFrames (hc : c.machine.cpu = cpu) (h : cpu.running = false) (count : Int) :
    (runFrames trace c count).machine.cpu = cpu := by
  have hl := Machine.isLive_of_not_running (hc ▸ h)
  rw [machine_runFrames, Machine.runFrames_of_not_isLive hl]
  exact hc

variable {d : Directory} {verb : Verb} {rest : List Char}

/-- A command that drives a machine whose program has stopped leaves the processor as it is. -/
theorem cpu_perform_of_drives (hv : verb.drives = true) (h : c.machine.cpu.running = false) :
    (perform d trace verb rest c).console.machine.cpu = c.machine.cpu := by
  let P (s : Machine) := s.cpu = c.machine.cpu
  cases verb with
  | step => exact Machine.Robust.ofExcept_bind (P := P) rfl fun n => cpu_steps rfl h n.toNat
  | tick => exact Machine.Robust.ofExcept_bind (P := P) rfl fun n => cpu_runFrames rfl h n
  | run => exact Machine.Robust.ofExcept_bind (P := P) rfl fun n => cpu_runFrames rfl h n
  | resume => rfl
  | proceed =>
    -- The breakpoint is left first, which does not touch the processor.
    let c' : Console := { c with machine := c.machine.resume }
    exact Machine.Robust.ofExcept_bind (P := P) (c := c') rfl fun n =>
      cpu_runFrames (c := c') rfl h n
  | _ => cases hv

/-- The line is a command that drives the machine. -/
def Drives (line : List Char) : Prop :=
  ∃ verb rest, Line.ofText line = .command verb rest ∧ verb.drives = true

theorem cpu_onLine_of_drives {line : List Char} (hl : Drives line)
    (h : c.machine.cpu.running = false) : (onLine d trace line c).machine.cpu = c.machine.cpu := by
  obtain ⟨verb, rest, hline, hv⟩ := hl
  rw [machine_onLine, replyTo, hline]
  exact cpu_perform_of_drives hv h

end Monitor

namespace Machine

open Monitor (Console Drives onLine)

variable {s : Machine} {trace : Bool}

/-! ## Driving a machine on -/

/-- What drives a machine on. -/
inductive Drive
  /-- Run a frame. -/
  | tick
  /-- Run up to some frames. -/
  | frames (n : Nat)
  /-- Run until the program stops, for a number of frames at most. -/
  | untilStopped (most : Int)
  /-- Leave a breakpoint. -/
  | resume
  /-- Carry out a line of the monitor that drives the machine. -/
  | line (files : Directory) (text : List Char) (drives : Drives text)

/-- The machine after it is driven on. -/
def drive (trace : Bool) (s : Machine) : Drive → Machine
  | .tick => (s.tick trace).machine
  | .frames n => (s.runFrames trace n).machine
  | .untilStopped most => (s.runUntilStopped trace most).machine
  | .resume => s.resume
  | .line files text _ => (onLine files trace text (Console.ofMachine s)).machine

/-- The machine after it is driven on again and again. -/
def driven (trace : Bool) (s : Machine) (drives : List Drive) : Machine :=
  drives.foldl (drive trace) s

theorem cpu_drive (h : s.cpu.running = false) (d : Drive) : (s.drive trace d).cpu = s.cpu := by
  have hl := isLive_of_not_running h
  cases d with
  | tick => exact congrArg (fun o => o.machine.cpu) (tick_of_not_isLive hl trace)
  | frames n => exact congrArg (fun o => o.machine.cpu) (runFrames_of_not_isLive hl trace n)
  | untilStopped most => exact congrArg cpu (runUntilStopped_of_not_running h most)
  | resume => rfl
  | line files text hd => exact Monitor.cpu_onLine_of_drives hd h

/-- Driving on a machine whose program has stopped changes nothing in its processor. -/
theorem cpu_driven (h : s.cpu.running = false) (drives : List Drive) :
    (s.driven trace drives).cpu = s.cpu := by
  induction drives generalizing s with
  | nil => rfl
  | cons d drives ih =>
    have hd : (s.drive trace d).cpu = s.cpu := cpu_drive h d
    have hrest := ih (s := s.drive trace d) (by rw [hd]; exact h)
    exact hrest.trans hd

/-- Whatever was done to a machine in order, a step stops its program exactly if the instruction
that is executed says so or jumps to the address that it stands at.  No step, no frame and no single
step starts a program that has stopped.  Whatever drives on a machine whose program has stopped
leaves the processor as it is. -/
theorem stops_exactly_and_finally (trace : Bool) :
    (∀ (s : Machine) (history : List Operation) (n : Nat) (c c' : Cpu) (cost : Cost), s.WellFormed →
      (s.after trace history).cpu.iterate n = .ok c → c.step = .ok (cost, c') →
      c.running = true →
      (c'.running = false ↔ ∃ i, c.fetch = .ok i ∧ i.StopsAt c.pc)) ∧
    (∀ (c c' : Cpu) (cost : Cost), c.step = .ok (cost, c') → c.running = false →
      c'.running = false) ∧
    (∀ (c c' : Cpu) (n : Nat), c.iterate n = .ok c' → c.running = false → c'.running = false) ∧
    (∀ s : Machine, s.cpu.running = false →
      (s.tick trace).machine.cpu.running = false ∧
        (s.stepInstruction trace).machine.cpu.running = false) ∧
    ∀ (s : Machine) (drives : List Drive), s.cpu.running = false →
      (s.driven trace drives).cpu = s.cpu := by
  refine ⟨?_, ?_, ?_, ?_, ?_⟩
  · intro s history n c c' cost hs hn hstep hr
    have hrange := (wellFormed_iff.1 (hs.after trace history)).cpu.iterate hn
    obtain ⟨i, hi, rfl⟩ := Cpu.exists_of_step_eq_ok hstep
    refine (Cpu.running_perform_iff hrange.pc hr hi).trans ⟨fun hstop => ⟨i, hi, hstop⟩, ?_⟩
    rintro ⟨j, hj, hstop⟩
    rw [hi] at hj
    cases hj
    exact hstop
  · intro c c' cost hstep hr
    obtain ⟨i, -, rfl⟩ := Cpu.exists_of_step_eq_ok hstep
    exact Cpu.not_running_perform hr
  · intro c c' n hn hr
    exact Cpu.not_running_iterate hr hn
  · intro s hr
    exact ⟨kept_not_running.tick trace hr, kept_not_running.stepInstruction trace hr⟩
  · intro s drives hr
    exact cpu_driven hr drives

/-- A program that jumps to itself at once, and attempts to make it go on. -/
theorem stops_exactly_and_finally_at_self_jump :
    let s := fresh .chip8 54000 0
    let history : List Operation := [.load [0x12, 0x00], .reset none]
    let c := (s.after false history).cpu
    let jump : Instruction := ⟨.jp, [0x200]⟩
    let stopped := { s.after false history with cpu := c.perform jump }
    let drives : List Drive := [.tick, .resume, .untilStopped 9,
      .line ⟨[]⟩ "continue 7".toList ⟨.proceed, ['7'], by decide, rfl⟩]
    s.WellFormed ∧ c.iterate 0 = .ok c ∧ c.step = .ok (c.cost jump, c.perform jump) ∧
      c.running = true ∧ (c.perform jump).running = false ∧
      (stopped.driven false drives).cpu = c.perform jump := by
  intro s history c jump stopped drives
  have hs : s.WellFormed := wellFormed_iff.2 (inRange_fresh .chip8 54000 0)
  have hjump : c.fetch = .ok jump :=
    fetch_of_program (s := s.after false [.load [0x12, 0x00]]) (k := 0) [0x12, 0x00] rfl rfl
      (by decide) rfl (by decide) rfl
  have hstep := Cpu.step_of_fetch hjump
  obtain ⟨hexact, -, -, -, hfinal⟩ := stops_exactly_and_finally false
  have hstops : (c.perform jump).running = false :=
    (hexact s history 0 c _ _ hs rfl hstep rfl).2 ⟨jump, hjump, .inr ⟨rfl, rfl⟩⟩
  exact ⟨hs, rfl, hstep, rfl, hstops, hfinal stopped drives hstops⟩

end Machine

end ChipEight
