/-
Commands that load programs and run them.

Main statement: `machine_runFrames`, running frames from the monitor leaves the machine that
running frames leaves.
-/
import ChipEight.Disassembly
import ChipEight.Monitor.Console

namespace ChipEight.Monitor

/-! ## Loading -/

/-- Load the image in a file. -/
def load (d : Directory) (rest : List Char) (c : Console) : Except Rejection Console := do
  match ← wordsOf rest with
  | [] => return c.print "Usage: load <file>"
  | path :: _ =>
    match c.machine.loadRaw d path with
    | .ok (s, n) =>
      return { c with machine := s }.print
        s!"Loaded {n} bytes from '{String.ofList path}' at 0x200"
    | .error e => return c.printError e.message

/-- The source text that the arguments of the assembler give, or what is to be printed because
its file cannot be read. -/
def sourceText (d : Directory) (path : List Char) (more : List (List Char)) :
    Except Rejection (Except String (List Char)) :=
  if path = ['-', 'e'] then
    .ok (.ok ((more.head?.getD []).map fun ch => if ch = ';' then '\n' else ch))
  else
    match d.readText path with
    | .ok text => .ok (.ok text)
    | .error (.path e) =>
      if e.fault = .nullCharacter then .error (.source (.path e))
      else .ok (.error s!"Error reading '{String.ofList path}': {e.message}")
    | .error e => .error (.source e)

/-- Assemble a source text and load the program. -/
def assembleAndLoad (source : List Char) (c : Console) : Console :=
  match Assembly.assemble source Memory.programStart with
  | .error e => c.print s!"Assembly error: {e.message}"
  | .ok image =>
    match c.machine.load image with
    | .ok s => { c with machine := s }.print s!"Assembled {image.length} bytes at 0x200"
    | .error e => c.printError e.message

/-- Assemble the source in a file or in the arguments and load the program. -/
def assemble (d : Directory) (rest : List Char) (c : Console) : Except Rejection Console := do
  match ← wordsOf rest with
  | [] => return c.print "Usage: asm <file.asm>  OR  asm -e \"code\""
  | path :: more =>
    match ← sourceText d path more with
    | .ok source => return assembleAndLoad source c
    | .error message => return c.print message

/-- Reset the machine. -/
def reset (c : Console) : Console :=
  { c with machine := c.machine.reset none }.print "System reset."

/-- Show the dialect, or choose one and reset the machine. -/
def dialect (rest : List Char) (c : Console) : Console :=
  if Text.trim rest = [] then c.print s!"  {c.machine.cpu.dialect.describe}"
  else
    match Dialect.preset rest with
    | .ok d =>
      let name := String.ofList (Text.lower (Text.trim rest))
      { c with machine := c.machine.reset (some d) }.print s!"  Quirks set to {name} (system reset)."
    | .error e => c.printError e.message

/-! ## Running -/

/-- The line that shows a step. -/
def stepLine (address : Int) (word : Nat) (cycles : Int) : String :=
  let text := Disassembly.wordText word
  let filled := text ++ List.replicate (20 - text.length) ' '
  s!"  {String.ofList (Hex.marked 5 address)}: {String.ofList filled} ({cycles} cyc)"

/-- Make up to `count` single steps while the program has not stopped. -/
def steps (trace : Bool) (c : Console) : Nat → Console
  | 0 => c
  | count + 1 =>
    if c.machine.cpu.running then
      let address := c.machine.cpu.pc
      let word := c.machine.cpu.word
      let o := c.machine.stepInstruction trace
      match o.result with
      | .ok cycles => steps trace ((c.after o).print (stepLine address word cycles)) count
      | .error e => (c.after o).printError e.message
    else c.print "Program has stopped."

/-- The line that shows how a run of frames ended. -/
def framesLine (s : Machine) (ran : Nat) : String :=
  let pc := String.ofList (Hex.marked 5 s.cpu.pc)
  if s.halted then s!"Breakpoint hit at {pc} after {ran} ticks."
  else if !s.cpu.running then s!"Program stopped after {ran} ticks."
  else s!"Ran {ran} ticks.  PC={pc}"

/-- Run up to `count` frames. -/
def runFrames (trace : Bool) (c : Console) (count : Int) : Console :=
  let o := c.machine.runFrames trace count.toNat
  match o.result with
  | .ok ran => (c.after o).print (framesLine o.machine ran)
  | .error e => (c.after o).printError e.message

/-- The frames that are run unless another number is asked for. -/
def defaultFrames : Int := 100000

/-- Make single steps. -/
def step (trace : Bool) (rest : List Char) (c : Console) : Except Rejection Console := do
  let count ← countOf rest 1
  return steps trace c count.toNat

/-- Run frames, one unless another number is asked for. -/
def tick (trace : Bool) (rest : List Char) (c : Console) : Except Rejection Console := do
  let count ← countOf rest 1
  return runFrames trace c count

/-- Run frames until something happens. -/
def run (trace : Bool) (rest : List Char) (c : Console) : Except Rejection Console := do
  let count ← countOf rest defaultFrames
  return runFrames trace c count

/-- Leave a breakpoint. -/
def resume (c : Console) : Console :=
  { c with machine := c.machine.resume }.print "Resumed."

theorem machine_runFrames (trace : Bool) (c : Console) (count : Int) :
    (runFrames trace c count).machine = (c.machine.runFrames trace count.toNat).machine := by
  unfold runFrames
  dsimp only
  split <;> rfl

end ChipEight.Monitor
