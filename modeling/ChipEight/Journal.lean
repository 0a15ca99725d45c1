/-
The journal: what the machine reports while it works.

An event is a value; its level, its source and its wording are functions of it, so that the
machine can be reasoned about without its reports.  Journals are lists of events, the latest
first.
-/
import ChipEight.Instruction.Form
import ChipEight.Numeral.Hex

namespace ChipEight

/-! ## Status lines -/

/-- What a status line shows of the processor. -/
structure Status where
  /-- The program counter. -/
  pc : Int
  /-- The index register. -/
  index : Int
  /-- The delay timer. -/
  delay : Int
  /-- The sound timer. -/
  sound : Int
  /-- The number of return addresses. -/
  depth : Nat
  deriving DecidableEq, Repr

/-- The status line. -/
def Status.text (s : Status) : String :=
  let pc := String.ofList (Hex.bare 4 s.pc)
  let index := String.ofList (Hex.bare 4 s.index)
  let delay := String.ofList (Hex.bare 2 s.delay)
  let sound := String.ofList (Hex.bare 2 s.sound)
  s!"CPU(pc=${pc} i=${index} dt=${delay} st=${sound} sp={s.depth})"

/-! ## Events -/

/-- How important an event is. -/
inductive Level
  /-- Shown on request only. -/
  | debug
  /-- Of interest. -/
  | info
  /-- A fault. -/
  | error
  deriving DecidableEq, Repr

/-- The name of the level. -/
def Level.name : Level → String
  | debug => "DEBUG"
  | info => "INFO"
  | error => "ERROR"

/-- What the machine reports. -/
inductive Event
  /-- An instruction is about to be executed. -/
  | executing (status : Status) (instruction : Instruction)
  /-- A word that is no instruction was fetched. -/
  | invalidOpcode (word address : Int)
  /-- A jump to itself stops the program. -/
  | selfJump (target : Int)
  /-- A breakpoint halts the machine. -/
  | breakpoint (address : Int)
  /-- A single step was made from the keyboard. -/
  | stepped (status : Status)
  /-- The machine goes on after a breakpoint. -/
  | resuming (address : Int)
  /-- The status was asked for from the keyboard. -/
  | status (status : Status)
  /-- The screen was asked for from the keyboard. -/
  | screen (width : Nat) (text : List Char)
  /-- A program was loaded. -/
  | loaded (size : Nat) (path dialect : String)
  /-- A run without a window is over. -/
  | ran (frames : Int) (running halted : Bool)
  deriving DecidableEq, Repr

/-- A truth value as reports show it. -/
def truthText (b : Bool) : String :=
  if b then "True" else "False"

namespace Event

/-- How important the event is. -/
def level : Event → Level
  | executing .. => .debug
  | invalidOpcode .. => .error
  | _ => .info

/-- The part of the machine that reports the event. -/
def source : Event → String
  | executing .. | invalidOpcode .. | selfJump .. => "chip8"
  | breakpoint .. => "system"
  | stepped .. | resuming .. | status .. | screen .. => "display"
  | loaded .. | ran .. => "cli"

/-- The wording of the event. -/
def message : Event → String
  | executing s i =>
    let text := match i.text with
      | .ok t => String.ofList t
      | .error f => f.name
    s!"{s.text} {text}"
  | invalidOpcode word address =>
    s!"Invalid opcode ${String.ofList (Hex.bare 4 word)} at {String.ofList (Hex.marked 5 address)}"
  | selfJump target =>
    s!"Infinite loop detected at {String.ofList (Hex.marked 5 target)}, halting"
  | breakpoint address => s!"Breakpoint hit at {String.ofList (Hex.marked 5 address)}"
  | stepped s => s.text
  | resuming address => s!"Resuming from breakpoint at {String.ofList (Hex.marked 5 address)}"
  | status s => s!"CPU: {s.text}"
  | screen width text =>
    let border := String.ofList (List.replicate width '-')
    s!"\n{border}\n{String.ofList text}\n{border}"
  | loaded size path dialect => s!"Loaded {size} bytes from '{path}' (quirks: {dialect})"
  | ran frames running halted =>
    s!"Ran {frames} frames (running={truthText running} halted={truthText halted})"

/-- The event as a line of the journal. -/
def line (e : Event) : String :=
  s!"{e.level.name} {e.source}: {e.message}"

end Event

end ChipEight
