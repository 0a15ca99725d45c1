/-
Properties of machines that survive whatever is done to a machine.

`Machine.Kept P` says that `P` survives the parts of which runs are made: an instruction, a tick of
the timers, and changes of the bookkeeping.  `Machine.Robust P` says that it survives a reset,
breakpoints, keys, and what a debugger writes as well, and `Machine.Invariant P` that it also
survives the loading of a program.

Main statements:
* `Kept.tick`, `Kept.stepInstruction`, `Kept.runFrames`: what the parts of a run keep, runs keep;
* `Robust.monitorPerform`: what the operations but loading keep, the commands of the monitor that
  load nothing keep;
* `Invariant.onLine`: what the operations keep, the lines of the monitor keep;
* `Invariant.after`: so does every history of operations.
-/
import ChipEight.Monitor.Session

namespace ChipEight

open Monitor (Console Rejection)

namespace Machine

/-- The property survives the parts of which runs are made. -/
structure Kept (P : Machine → Prop) : Prop where
  perform : ∀ {s : Machine} {i : Instruction}, s.cpu.fetch = .ok i → P s →
    P { s with cpu := s.cpu.perform i }
  tickTimers : ∀ {s : Machine}, P s → P { s with cpu := s.cpu.tickTimers }
  halted : ∀ {s : Machine} (b : Bool), P s → P { s with halted := b }
  stepCycles : ∀ {s : Machine} (n : Int), P s → P { s with stepCycles := n }

/-- The property survives every operation on a machine but the loading of a program. -/
structure Robust (P : Machine → Prop) : Prop extends Kept P where
  reset : ∀ {s : Machine} (d : Option Dialect), P s → P (s.reset d)
  setBreakpoint : ∀ {s : Machine} (a : Int), P s → P (s.setBreakpoint a)
  removeBreakpoint : ∀ {s : Machine} (a : Int), P s → P (s.removeBreakpoint a)
  clearBreakpoints : ∀ {s : Machine}, P s → P { s with breakpoints := Breakpoints.empty }
  keyDown : ∀ {s : Machine} (k : Int), P s → P (s.keyDown k)
  keyUp : ∀ {s : Machine} (k : Int), P s → P (s.keyUp k)
  withRegister : ∀ {s : Machine} {cpu : Cpu} {name : List Char} {v : Int},
    Monitor.withRegister s.cpu name v = some cpu → P s → P { s with cpu }
  write : ∀ {s : Machine} (a : Int) (b : UInt8), P s →
    P { s with cpu := { s.cpu with memory := s.cpu.memory.write a b } }

/-- The property survives every operation on a machine. -/
structure Invariant (P : Machine → Prop) : Prop extends Robust P where
  load : ∀ {s s' : Machine} {program : Image}, s.load program = .ok s' → P s → P s'

namespace Kept

variable {P : Machine → Prop} (hP : Kept P)
include hP

/-! ## Frames -/

/-- The instructions of a frame keep what one instruction keeps. -/
theorem runCycles (s : Machine) (trace : Bool) (breakpoints : Breakpoints) (left : Nat) (cpu : Cpu)
    (journal : List Event) (h : P { s with cpu }) :
    P { s with cpu := (Machine.runCycles trace breakpoints left cpu journal).cpu } := by
  fun_induction Machine.runCycles trace breakpoints left cpu journal with
  | case1 => exact h
  | case2 left cpu journal _ i hi => exact hP.perform (s := { s with cpu }) hi h
  | case3 left cpu journal _ i hi _ _ _ _ ih => exact ih (hP.perform (s := { s with cpu }) hi h)
  | case4 => exact h

theorem tick {s : Machine} (trace : Bool) (h : P s) : P (s.tick trace).machine := by
  have hrun := hP.runCycles s trace s.breakpoints s.budget.toNat s.cpu [] h
  rw [Machine.tick]
  split
  · dsimp only
    split
    · exact hP.tickTimers hrun
    · exact hP.halted true hrun
    · exact hrun
  · exact h

theorem runFramesFrom {s : Machine} (trace : Bool) (ran : Nat) (journal : List Event) (n : Nat)
    (h : P s) : P (Machine.runFramesFrom trace ran journal s n).machine := by
  induction n generalizing s ran journal with
  | zero => exact h
  | succ n ih =>
    rw [Machine.runFramesFrom]
    split
    · dsimp only
      split
      · exact ih _ _ (hP.tick trace h)
      · exact hP.tick trace h
    · exact h

theorem runFrames {s : Machine} (trace : Bool) (n : Nat) (h : P s) :
    P (s.runFrames trace n).machine :=
  hP.runFramesFrom trace 0 [] n h

theorem runUntilStoppedFrom {s : Machine} (trace : Bool) (ran : Nat) (journal : List Event)
    (left : Nat) (h : P s) : P (Machine.runUntilStoppedFrom trace ran journal s left).machine := by
  induction left generalizing s ran journal with
  | zero => exact h
  | succ left ih =>
    have htick := hP.tick trace h
    rw [Machine.runUntilStoppedFrom]
    split
    · split
      · exact ih _ _ htick
      · exact htick
    · exact htick

theorem runUntilStopped {s : Machine} (trace : Bool) (most : Int) (h : P s) :
    P (s.runUntilStopped trace most).machine :=
  hP.runUntilStoppedFrom trace 0 [] most.toNat h

/-! ## Single steps -/

theorem stepCpu {s : Machine} (trace : Bool) (h : P s) : P (s.stepCpu trace).machine := by
  rw [Machine.stepCpu]
  split
  · exact h
  · exact hP.perform ‹_› h

theorem countCycles {s : Machine} (cycles : Int) (h : P s) : P (s.countCycles cycles) := by
  rw [Machine.countCycles]
  dsimp only
  split
  · exact hP.stepCycles _ (hP.tickTimers h)
  · exact hP.stepCycles _ h

theorem stepInstruction {s : Machine} (trace : Bool) (h : P s) :
    P (s.stepInstruction trace).machine := by
  have hstep := hP.stepCpu trace h
  rw [Machine.stepInstruction]
  split
  · exact hP.countCycles _ hstep
  · exact hstep

/-! ## Runs from the monitor -/

theorem monitorSteps (trace : Bool) (c : Console) (count : Nat) (h : P c.machine) :
    P (Monitor.steps trace c count).machine := by
  induction count generalizing c with
  | zero => exact h
  | succ count ih =>
    have hstep := hP.stepInstruction trace h
    rw [Monitor.steps]
    split
    · dsimp only
      split
      · exact ih _ hstep
      · exact hstep
    · exact h

theorem monitorRunFrames (trace : Bool) (c : Console) (count : Int) (h : P c.machine) :
    P (Monitor.runFrames trace c count).machine := by
  rw [Monitor.machine_runFrames]
  exact hP.runFrames trace count.toNat h

end Kept

theorem exists_of_bind_eq_ok {ε α β : Type} {x : Except ε α} {f : α → Except ε β} {b : β}
    (h : x >>= f = .ok b) : ∃ a, x = .ok a ∧ f a = .ok b := by
  cases x with
  | error e => cases h
  | ok a => exact ⟨a, rfl, h⟩

namespace Robust

variable {P : Machine → Prop} (hP : Robust P)
include hP

theorem resume {s : Machine} (h : P s) : P s.resume :=
  hP.halted false h

theorem writeWords {s : Machine} (a : Int) (words : List (List Char)) (h : P s) :
    P { s with cpu := { s.cpu with memory := (Monitor.writeWords s.cpu.memory a words).1 } } := by
  induction words generalizing s a with
  | nil => exact h
  | cons word words ih =>
    rw [Monitor.writeWords]
    split
    · exact ih (a + 1) (hP.write a _ h)
    · exact h

/-! ## Commands of the monitor -/

variable {c c' : Console} {rest : List Char}

theorem monitorDialect (h : P c.machine) : P (Monitor.dialect rest c).machine := by
  rw [Monitor.dialect]
  split
  · exact h
  · split
    · exact hP.reset _ h
    · exact h

theorem monitorSetBreakpoint (h : P c.machine) (hr : Monitor.setBreakpoint rest c = .ok c') :
    P c'.machine := by
  rw [Monitor.setBreakpoint] at hr
  split at hr
  · split at hr <;> cases hr
    · exact h
    · simpa using h
  · obtain ⟨a, -, hr⟩ := exists_of_bind_eq_ok hr
    cases hr
    exact hP.setBreakpoint a h

theorem monitorRemoveBreakpoint (h : P c.machine)
    (hr : Monitor.removeBreakpoint rest c = .ok c') : P c'.machine := by
  rw [Monitor.removeBreakpoint] at hr
  split at hr
  · cases hr
    exact hP.clearBreakpoints h
  · obtain ⟨a, -, hr⟩ := exists_of_bind_eq_ok hr
    cases hr
    exact hP.removeBreakpoint a h

theorem monitorSetRegister (h : P c.machine) (hr : Monitor.setRegister rest c = .ok c') :
    P c'.machine := by
  obtain ⟨words, -, hr⟩ := exists_of_bind_eq_ok hr
  split at hr
  · obtain ⟨v, -, hr⟩ := exists_of_bind_eq_ok hr
    split at hr
    · cases hr
      exact hP.withRegister ‹_› h
    · cases hr
      exact h
  · cases hr
    exact h

omit hP in
theorem monitorDump (h : P c.machine) (hr : Monitor.dump rest c = .ok c') : P c'.machine := by
  obtain ⟨words, -, hr⟩ := exists_of_bind_eq_ok hr
  split at hr
  · cases hr
    exact h
  · obtain ⟨a, -, hr⟩ := exists_of_bind_eq_ok hr
    obtain ⟨n, -, hr⟩ := exists_of_bind_eq_ok hr
    cases hr
    simpa using h

theorem monitorSetMemory (h : P c.machine) : P (Monitor.setMemory rest c).1.machine := by
  rw [Monitor.setMemory]
  split
  · exact h
  · split
    · exact h
    · dsimp only
      split
      · exact hP.writeWords _ _ h
      · exact hP.writeWords _ _ h
  · exact h

omit hP in
theorem monitorDisassemble (h : P c.machine) (hr : Monitor.disassemble rest c = .ok c') :
    P c'.machine := by
  obtain ⟨words, -, hr⟩ := exists_of_bind_eq_ok hr
  dsimp only at hr
  split at hr
  all_goals
    obtain ⟨a, -, hr⟩ := exists_of_bind_eq_ok hr
    obtain ⟨n, -, hr⟩ := exists_of_bind_eq_ok hr
    cases hr
    simpa using h

theorem monitorKey (h : P c.machine) (hr : Monitor.key rest c = .ok c') : P c'.machine := by
  obtain ⟨words, -, hr⟩ := exists_of_bind_eq_ok hr
  split at hr
  · split at hr
    · obtain ⟨k, -, hr⟩ := exists_of_bind_eq_ok hr
      split at hr
      · cases hr
        dsimp only [Console.machine_print]
        split
        · exact hP.keyUp k h
        · exact hP.keyDown k h
      · cases hr
        exact h
    · cases hr
      exact h
  · cases hr
    exact h

omit hP in
theorem ofExcept {r : Except Rejection Console} (h : P c.machine)
    (hr : ∀ c', r = .ok c' → P c'.machine) : P (Monitor.Reply.ofExcept c r).console.machine := by
  cases r with
  | ok c' => exact hr c' rfl
  | error e => exact h

omit hP in
/-- A command that counts something out keeps what every count keeps, even if the count is
malformed. -/
theorem ofExcept_bind {x : Except Rejection Int} {f : Int → Console} (h : P c.machine)
    (hf : ∀ n, P (f n).machine) :
    P (Monitor.Reply.ofExcept c (x >>= fun n => pure (f n))).console.machine := by
  cases x with
  | ok n => exact hf n
  | error e => exact h

/-- A command of the monitor that loads nothing keeps what the operations but loading keep. -/
theorem monitorPerform (d : Directory) (trace : Bool) {verb : Monitor.Verb} (hload : verb ≠ .load)
    (hasm : verb ≠ .asm) (h : P c.machine) :
    P (Monitor.perform d trace verb rest c).console.machine := by
  cases verb with
  | load => exact absurd rfl hload
  | asm => exact absurd rfl hasm
  | reset => exact hP.reset none h
  | dialect => exact hP.monitorDialect h
  | step => exact ofExcept_bind h fun n => hP.monitorSteps trace c n.toNat h
  | tick => exact ofExcept_bind h fun n => hP.monitorRunFrames trace c n h
  | run => exact ofExcept_bind h fun n => hP.monitorRunFrames trace c n h
  | resume => exact hP.resume h
  | proceed =>
    have h' := hP.resume h
    exact ofExcept_bind h' fun n => hP.monitorRunFrames trace _ n h'
  | setBreakpoint => exact ofExcept h fun _ => hP.monitorSetBreakpoint h
  | removeBreakpoint => exact ofExcept h fun _ => hP.monitorRemoveBreakpoint h
  | registers => simpa [Monitor.perform, Monitor.Reply.done, Monitor.registers] using h
  | setRegister => exact ofExcept h fun _ => hP.monitorSetRegister h
  | dump => exact ofExcept h fun _ => monitorDump h
  | setMemory => exact hP.monitorSetMemory h
  | disassemble => exact ofExcept h fun _ => monitorDisassemble h
  | screen => simpa [Monitor.perform, Monitor.Reply.done, Monitor.screen] using h
  | key => exact ofExcept h fun _ => hP.monitorKey h
  | status => simpa [Monitor.perform, Monitor.Reply.done, Monitor.status] using h
  | help => simpa [Monitor.perform, Monitor.Reply.done] using h
  | quit => exact h
  | endOfInput => exact h

end Robust

namespace Invariant

variable {P : Machine → Prop} (hP : Invariant P)
include hP

theorem loadRaw {s s' : Machine} {d : Directory} {path : List Char} {n : Nat}
    (hs : s.loadRaw d path = .ok (s', n)) (h : P s) : P s' := by
  rw [Machine.loadRaw] at hs
  split at hs
  · exact hP.load (loadSized_eq_ok_iff.1 hs).1 h
  · cases hs

theorem loadProgram {s s' : Machine} {d : Directory} {path : List Char} {n : Nat}
    (hs : s.loadProgram d path = .ok (s', n)) (h : P s) : P s' := by
  rw [Machine.loadProgram] at hs
  split at hs
  · exact hP.load (loadSized_eq_ok_iff.1 hs).1 h
  · cases hs

variable {c c' : Console} {rest : List Char}

theorem monitorLoad {d : Directory} (h : P c.machine) (hr : Monitor.load d rest c = .ok c') :
    P c'.machine := by
  obtain ⟨words, -, hr⟩ := exists_of_bind_eq_ok hr
  split at hr
  · cases hr
    exact h
  · rename_i path _
    split at hr
    · rename_i s n hs
      cases hr
      exact hP.loadRaw hs h
    · cases hr
      exact h

theorem monitorAssemble {d : Directory} (h : P c.machine)
    (hr : Monitor.assemble d rest c = .ok c') : P c'.machine := by
  obtain ⟨words, -, hr⟩ := exists_of_bind_eq_ok hr
  split at hr
  · cases hr
    exact h
  · obtain ⟨source, -, hr⟩ := exists_of_bind_eq_ok hr
    split at hr
    · cases hr
      rw [Monitor.assembleAndLoad]
      split
      · exact h
      · split
        · exact hP.load ‹_› h
        · exact h
    · cases hr
      exact h

/-- A command of the monitor keeps what the operations keep. -/
theorem monitorPerform (d : Directory) (trace : Bool) (verb : Monitor.Verb) (h : P c.machine) :
    P (Monitor.perform d trace verb rest c).console.machine := by
  by_cases hload : verb = .load
  · subst hload
    exact Robust.ofExcept h fun _ => hP.monitorLoad h
  · by_cases hasm : verb = .asm
    · subst hasm
      exact Robust.ofExcept h fun _ => hP.monitorAssemble h
    · exact hP.toRobust.monitorPerform d trace hload hasm h

/-- A line of the monitor keeps what the operations keep. -/
theorem onLine (d : Directory) (trace : Bool) (line : List Char) (h : P c.machine) :
    P (Monitor.onLine d trace line c).machine := by
  rw [Monitor.machine_onLine, Monitor.replyTo]
  split
  · exact h
  · exact hP.monitorPerform d trace _ h
  · exact h

end Invariant

/-! ## Histories -/

/-- What can be done to a machine. -/
inductive Operation
  /-- Load a program. -/
  | load (program : Image)
  /-- Run a frame. -/
  | tick
  /-- Make a single step. -/
  | step
  /-- Reset the machine, to another dialect if one is given. -/
  | reset (dialect : Option Dialect)
  /-- Leave a breakpoint. -/
  | resume
  /-- Set a breakpoint. -/
  | setBreakpoint (address : Int)
  /-- Remove a breakpoint. -/
  | removeBreakpoint (address : Int)
  /-- Press a key. -/
  | keyDown (key : Int)
  /-- Release a key. -/
  | keyUp (key : Int)
  /-- Carry out a line of the monitor, with the files that there are then. -/
  | line (files : Directory) (text : List Char)

/-- The machine after an operation; a program that does not fit is not loaded. -/
def apply (trace : Bool) (s : Machine) : Operation → Machine
  | .load program => (s.load program).toOption.getD s
  | .tick => (s.tick trace).machine
  | .step => (s.stepInstruction trace).machine
  | .reset dialect => s.reset dialect
  | .resume => s.resume
  | .setBreakpoint address => s.setBreakpoint address
  | .removeBreakpoint address => s.removeBreakpoint address
  | .keyDown key => s.keyDown key
  | .keyUp key => s.keyUp key
  | .line files text => (Monitor.onLine files trace text (Console.ofMachine s)).machine

/-- The machine after a history of operations, the first of them first. -/
def after (trace : Bool) (s : Machine) (history : List Operation) : Machine :=
  history.foldl (apply trace) s

variable {P : Machine → Prop}

theorem Invariant.apply (hP : Invariant P) {s : Machine} (trace : Bool) (o : Operation) (h : P s) :
    P (s.apply trace o) := by
  cases o with
  | load program =>
    change P ((s.load program).toOption.getD s)
    cases hs : s.load program with
    | ok s' => exact hP.load hs h
    | error e => exact h
  | tick => exact hP.tick trace h
  | step => exact hP.stepInstruction trace h
  | reset dialect => exact hP.reset dialect h
  | resume => exact hP.resume h
  | setBreakpoint a => exact hP.setBreakpoint a h
  | removeBreakpoint a => exact hP.removeBreakpoint a h
  | keyDown k => exact hP.keyDown k h
  | keyUp k => exact hP.keyUp k h
  | line files text => exact hP.onLine files trace text h

theorem Invariant.after (hP : Invariant P) {s : Machine} (trace : Bool) (history : List Operation)
    (h : P s) : P (s.after trace history) := by
  induction history generalizing s with
  | nil => exact h
  | cons o history ih => exact ih (hP.apply trace o h)

end Machine

end ChipEight
