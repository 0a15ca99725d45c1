/-
Running the machine: by single steps, by frames, and until the program stops.

A frame executes instructions until its cycles are used up, the program stops or the program
counter meets a breakpoint; the timers tick at its end, unless a breakpoint has halted it.

Main statements:
* `tick_of_not_isLive`: a frame of a machine that is halted or stopped does nothing;
* `runFrames_of_not_isLive`: nor does a run of frames.
-/
import ChipEight.Machine.Basic

namespace ChipEight

/-- Why a run is broken off. -/
inductive Fault
  /-- A word that is no instruction was met. -/
  | invalidOpcode (error : InvalidOpcode)
  /-- The program did not stop within so many frames. -/
  | timeout (frames : Int)
  deriving DecidableEq, Repr

/-- The wording of the fault. -/
def Fault.message : Fault → String
  | invalidOpcode e => e.message
  | timeout frames => s!"Did not exit in {frames} ticks"

/-- What an operation leaves behind: the machine, whether it failed or not, what was reported, the
latest first, and the result. -/
structure Outcome (α : Type) where
  /-- The machine. -/
  machine : Machine
  /-- What was reported. -/
  journal : List Event
  /-- The result, or why the operation was broken off. -/
  result : Except Fault α

namespace Machine

/-! ## Frames -/

/-- How a frame ends. -/
inductive FrameEnd
  /-- The cycles are used up or the program has stopped. -/
  | complete
  /-- The program counter has met a breakpoint. -/
  | breakpoint
  /-- A word that is no instruction was met. -/
  | fault (error : InvalidOpcode)
  deriving DecidableEq, Repr

/-- The processor at the end of a frame, with what was reported, the latest first. -/
structure Frame where
  /-- The processor, before the timers tick. -/
  cpu : Cpu
  /-- What was reported. -/
  journal : List Event
  /-- How the frame ends. -/
  ending : FrameEnd

/-- Execute instructions while cycles are left. -/
def runCycles (trace : Bool) (breakpoints : Breakpoints) (left : Nat) (cpu : Cpu)
    (journal : List Event) : Frame :=
  if _h : 0 < left ∧ cpu.running then
    match cpu.fetch with
    | .error e => ⟨cpu, cpu.faultNotice :: journal, .fault e⟩
    | .ok i =>
      let journal := cpu.stepNotices trace i ++ journal
      let cost := cpu.cost i
      let cpu := cpu.perform i
      if cpu.pc ∈ breakpoints then ⟨cpu, .breakpoint cpu.pc :: journal, .breakpoint⟩
      else runCycles trace breakpoints (cost.left left) cpu journal
  else ⟨cpu, journal, .complete⟩
  termination_by left
  decreasing_by exact Cost.left_lt _h.1 _

/-- Run one frame. -/
def tick (s : Machine) (trace : Bool) : Outcome Unit :=
  if s.isLive then
    let frame := runCycles trace s.breakpoints s.budget.toNat s.cpu []
    match frame.ending with
    | .complete => ⟨{ s with cpu := frame.cpu.tickTimers }, frame.journal, .ok ()⟩
    | .breakpoint => ⟨{ s with cpu := frame.cpu, halted := true }, frame.journal, .ok ()⟩
    | .fault e => ⟨{ s with cpu := frame.cpu }, frame.journal, .error (.invalidOpcode e)⟩
  else ⟨s, [], .ok ()⟩

/-- Run up to `n` frames while the machine is live, after `ran` frames that have reported
`journal`: the result is the number of frames that were run. -/
def runFramesFrom (trace : Bool) (ran : Nat) (journal : List Event) (s : Machine) :
    Nat → Outcome Nat
  | 0 => ⟨s, journal, .ok ran⟩
  | n + 1 =>
    if s.isLive then
      let o := s.tick trace
      match o.result with
      | .ok () => runFramesFrom trace (ran + 1) (o.journal ++ journal) o.machine n
      | .error e => ⟨o.machine, o.journal ++ journal, .error e⟩
    else ⟨s, journal, .ok ran⟩

/-- Run up to `n` frames while the machine is live: the result is the number of frames that were
run. -/
def runFrames (s : Machine) (trace : Bool) (n : Nat) : Outcome Nat :=
  runFramesFrom trace 0 [] s n

/-- Run up to `left` frames until the program stops, after `ran` frames. -/
def runUntilStoppedFrom (trace : Bool) (ran : Nat) (journal : List Event) (s : Machine) :
    Nat → Outcome (Option Nat)
  | 0 => ⟨s, journal, .ok none⟩
  | left + 1 =>
    let o := s.tick trace
    match o.result with
    | .ok () =>
      -- The frame in which the program stops is not counted.
      if o.machine.cpu.running then
        runUntilStoppedFrom trace (ran + 1) (o.journal ++ journal) o.machine left
      else ⟨o.machine, o.journal ++ journal, .ok (some ran)⟩
    | .error e => ⟨o.machine, o.journal ++ journal, .error e⟩

/-- Run until the program stops: the result is the number of frames before the one in which it
does.  It is a fault if it does not stop within `most` frames. -/
def runUntilStopped (s : Machine) (trace : Bool) (most : Int) : Outcome Nat :=
  let o := runUntilStoppedFrom trace 0 [] s most.toNat
  ⟨o.machine, o.journal,
    match o.result with
    | .ok (some n) => .ok n
    | .ok none => .error (.timeout most)
    | .error e => .error e⟩

/-! ## Single steps -/

/-- The machine after the cycles of a single step are counted: the timers tick when they make up a
frame. -/
def countCycles (s : Machine) (cycles : Int) : Machine :=
  let s := { s with stepCycles := s.stepCycles + cycles }
  if s.budget ≠ 0 ∧ s.budget ≤ s.stepCycles then
    { s with cpu := s.cpu.tickTimers, stepCycles := s.stepCycles - s.budget }
  else s

/-- Let the processor make one step: the result is its number of cycles. -/
def stepCpu (s : Machine) (trace : Bool) : Outcome Int :=
  match s.cpu.fetch with
  | .error e => ⟨s, [s.cpu.faultNotice], .error (.invalidOpcode e)⟩
  | .ok i =>
    let journal := s.cpu.stepNotices trace i
    let cycles := (s.cpu.cost i).cycles s.budget
    ⟨{ s with cpu := s.cpu.perform i }, journal, .ok cycles⟩

/-- Make a single step, whether or not the machine is live, and count its cycles: the result is
their number. -/
def stepInstruction (s : Machine) (trace : Bool) : Outcome Int :=
  let o := s.stepCpu trace
  match o.result with
  | .ok cycles => { o with machine := o.machine.countCycles cycles }
  | .error _ => o

/-! ## When nothing happens -/

theorem tick_of_not_isLive {s : Machine} (h : s.isLive = false) (trace : Bool) :
    s.tick trace = ⟨s, [], .ok ()⟩ := by
  simp [tick, h]

theorem runFrames_of_not_isLive {s : Machine} (h : s.isLive = false) (trace : Bool) (n : Nat) :
    s.runFrames trace n = ⟨s, [], .ok 0⟩ := by
  cases n <;> simp [runFrames, runFramesFrom, h]

end Machine

end ChipEight
