/-
The machine: a processor with its clock, its program and its breakpoints.

A machine is halted when it has met a breakpoint; it can be resumed.  The processor has stopped
when it is not running; that is final until a reset.
-/
import ChipEight.Cpu.Step
import ChipEight.Machine.Breakpoints

namespace ChipEight

/-- A processor with its clock, its program and its breakpoints. -/
structure Machine where
  /-- The processor. -/
  cpu : Cpu
  /-- The cycles in a second. -/
  clock : Int
  /-- The seed of the random numbers. -/
  seed : Int
  /-- Whether the machine waits at a breakpoint. -/
  halted : Bool
  /-- The breakpoints. -/
  breakpoints : Breakpoints
  /-- The program that was loaded last. -/
  program : Image
  /-- The cycles of single steps since the timers last ticked. -/
  stepCycles : Int

namespace Machine

/-- The clock that a machine has unless another is asked for. -/
def defaultClock : Int := 1000000

/-- The part of the clock that makes up a frame. -/
def clockDivisor : Int := 6000

/-- A machine without a program. -/
def fresh (dialect : Dialect) (clock seed : Int) : Machine where
  cpu := Cpu.fresh dialect seed
  clock := clock
  seed := seed
  halted := false
  breakpoints := Breakpoints.empty
  program := []
  stepCycles := 0

/-- The cycles of a frame. -/
def budget (s : Machine) : Int :=
  s.clock / clockDivisor

/-- Whether the next frame would do something. -/
def isLive (s : Machine) : Bool :=
  s.cpu.running && !s.halted

/-- The machine after a program is loaded. -/
def load (s : Machine) (program : Image) : Except Memory.ProgramTooLarge Machine :=
  match s.cpu.memory.load program with
  | .ok memory => .ok { s with program, cpu := { s.cpu with memory } }
  | .error e => .error e

/-- The machine with a fresh processor, of the same dialect unless another is given, and the same
program. -/
def reset (s : Machine) (dialect : Option Dialect) : Machine :=
  let cpu := Cpu.fresh (dialect.getD s.cpu.dialect) s.seed
  let memory := cpu.memory.writeBlock Memory.programStart s.program
  { s with cpu := { cpu with memory }, halted := false, stepCycles := 0 }

/-- The machine after a breakpoint is left. -/
def resume (s : Machine) : Machine :=
  { s with halted := false }

/-- The machine with one more breakpoint. -/
def setBreakpoint (s : Machine) (address : Int) : Machine :=
  { s with breakpoints := s.breakpoints.insert address }

/-- The machine with one breakpoint less. -/
def removeBreakpoint (s : Machine) (address : Int) : Machine :=
  { s with breakpoints := s.breakpoints.erase address }

/-- The machine after a key is pressed. -/
def keyDown (s : Machine) (k : Int) : Machine :=
  { s with cpu := s.cpu.keyDown k }

/-- The machine after a key is released. -/
def keyUp (s : Machine) (k : Int) : Machine :=
  { s with cpu := s.cpu.keyUp k }

end Machine

end ChipEight
