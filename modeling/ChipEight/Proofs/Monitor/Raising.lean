/-
A monitor whose operations raise their failures.

The monitor decides for itself what is to be done where a command cannot be carried out.  Here an
operation that cannot be carried out raises a failure, and the failure breaks off everything up to
the handler that takes it.  The commands that read files, assemble, choose a dialect or run programs
have handlers of their own, each for some kinds of failures, and around every line there is a
handler for malformed values.  What no handler takes escapes from the monitor, and ends it.

What makes no sense at all, such as taking a word that is not there, is a breach.  No handler takes
a breach.

Main definitions:
* `Failure`, `Failure.kind`: what is raised, and what handlers tell apart;
* `Breach`: what no handler takes;
* `Act`: an action that may be broken off;
* `Raising.onLine`: carrying out a line.
-/
import ChipEight.Monitor.Session
import ChipEight.Proofs.Assembly.Guards
import ChipEight.Proofs.Flat.Step

namespace ChipEight.Monitor

/-! ## Failures and breaches -/

/-- What is raised where an operation cannot be carried out. -/
inductive Failure
  /-- An argument is malformed, or a file is of no use. -/
  | rejection (reason : Rejection)
  /-- There is no such dialect. -/
  | preset (error : Dialect.UnknownPreset)
  /-- The screen has no columns. -/
  | noWidth (error : Screen.NoWidth)
  /-- The machine cannot go on. -/
  | fault (error : Fault)

/-- The kinds of failures that handlers tell apart. -/
inductive Kind
  /-- A value is malformed. -/
  | value
  /-- The system refuses something. -/
  | system
  /-- A source text cannot be assembled. -/
  | assembly
  /-- The machine has met a word that is no instruction. -/
  | machine
  deriving DecidableEq, Repr

namespace Failure

/-- The kind of a failure.  A path that cannot be handed to the system at all is a malformed
value. -/
def kind : Failure → Kind
  | rejection (.source (.path e)) => if e.fault = .nullCharacter then .value else .system
  | rejection (.source (.assembly _)) => .assembly
  | fault (.invalidOpcode _) => .machine
  | fault (.timeout _) => .system
  | _ => .value

/-- The wording of the failure. -/
def message : Failure → String
  | rejection e => e.message
  | preset e => e.message
  | noWidth e => e.message
  | fault e => e.message

end Failure

/-- What makes no sense. -/
inductive Breach
  /-- A word is taken that is not there. -/
  | noWord (place : Nat)
  /-- The assembler takes a step that it cannot take. -/
  | assembler (breach : Assembly.Breach)
  /-- The processor reaches outside its registers, cells, slots, keys or pixels. -/
  | step (fault : Flat.Fault)
  /-- The text of an instruction shows an operand that the instruction lacks. -/
  | noOperand (field : Field)

/-! ## Actions -/

/-- A console, with the failures that were raised, the latest first. -/
structure Desk where
  /-- The console. -/
  console : Console
  /-- The failures that were raised. -/
  raised : List Failure

/-- Why an action is broken off. -/
inductive Break
  /-- A failure was raised. -/
  | failure (failure : Failure)
  /-- Something made no sense. -/
  | breach (breach : Breach)

/-- An action at the console, which may be broken off. -/
abbrev Act := EStateM Break Desk

namespace Act

variable {α ε : Type}

/-- Raise a failure. -/
def raise (f : Failure) : Act α := do
  modify fun s => { s with raised := f :: s.raised }
  throw (.failure f)

/-- Break off because something makes no sense. -/
def breach (b : Breach) : Act α :=
  throw (.breach b)

/-- What an operation gives, or else its failure is raised. -/
def orRaise (failure : ε → Failure) : Except ε α → Act α
  | .ok a => return a
  | .error e => raise (failure e)

/-- What an operation gives, which makes no sense where it fails. -/
def orBreach (reason : ε → Breach) : Except ε α → Act α
  | .ok a => return a
  | .error e => breach (reason e)

/-- An action with a handler, which tells for each failure what to do instead if it takes it. -/
def handling (act : Act α) (handler : Failure → Option (Act α)) : Act α :=
  tryCatch act fun
    | .failure f => (handler f).getD (throw (.failure f))
    | .breach b => throw (.breach b)

/-- The console. -/
def console : Act Console :=
  return (← get).console

/-- Do something to the console that cannot fail. -/
def update (f : Console → Console) : Act Unit :=
  modify fun s => { s with console := f s.console }

/-- Put a machine in the place of the machine. -/
def setMachine (s : Machine) : Act Unit :=
  update fun c => { c with machine := s }

/-- Print a line. -/
def print (line : String) : Act Unit :=
  update (·.print line)

/-- Print an error. -/
def printError (f : Failure) : Act Unit :=
  update (·.printError f.message)

/-! ### What actions do -/

section Run

variable {s : Desk}

@[simp] theorem orRaise_ok (failure : ε → Failure) (a : α) :
    orRaise failure (.ok a) = return a := rfl

@[simp] theorem orBreach_ok (reason : ε → Breach) (a : α) :
    orBreach reason (.ok a) = return a := rfl

@[simp] theorem run_console : console.run s = .ok s.console s := rfl

@[simp] theorem run_update (f : Console → Console) :
    (update f).run s = .ok () { s with console := f s.console } := rfl

@[simp] theorem run_print (line : String) :
    (print line).run s = .ok () { s with console := s.console.print line } := rfl

/-- What is raised goes to the handler, if it takes it; a breach does not. -/
theorem run_handling (act : Act α) (handler : Failure → Option (Act α)) :
    (handling act handler).run s =
      match act.run s with
      | .ok a s' => .ok a s'
      | .error (.failure f) s' => ((handler f).getD (throw (.failure f))).run s'
      | .error (.breach b) s' => .error (.breach b) s' := by
  rw [handling]
  show EStateM.tryCatch act _ s = _
  rw [EStateM.tryCatch, EStateM.run]
  cases act s with
  | ok a s' => rfl
  | error b s' =>
    cases b with
    | failure f => rfl
    | breach b => rfl

end Run

end Act

/-! ## Steps with checks -/

namespace Raising

open Act

/-- A step of the processor reaches only what there is. -/
def checkStep (c : Cpu) : Except Flat.Fault Unit :=
  match c.flat.step with
  | .ok _ => .ok ()
  | .error (.invalidOpcode _) => .ok ()
  | .error f => .error f

/-- Execute instructions while cycles are left, with a check before each. -/
def runCycles (trace : Bool) (breakpoints : Breakpoints) (left : Nat) (cpu : Cpu)
    (journal : List Event) : Except Flat.Fault Machine.Frame :=
  if _h : 0 < left ∧ cpu.running then
    match checkStep cpu with
    | .error f => .error f
    | .ok () =>
      match cpu.fetch with
      | .error e => .ok ⟨cpu, cpu.faultNotice :: journal, .fault e⟩
      | .ok i =>
        let journal := cpu.stepNotices trace i ++ journal
        let cost := cpu.cost i
        let cpu := cpu.perform i
        if cpu.pc ∈ breakpoints then .ok ⟨cpu, .breakpoint cpu.pc :: journal, .breakpoint⟩
        else runCycles trace breakpoints (cost.left left) cpu journal
  else .ok ⟨cpu, journal, .complete⟩
  termination_by left
  decreasing_by exact Cost.left_lt _h.1 _

/-- Leave behind what an operation of the machine leaves, and give its result. -/
def finish {α : Type} (o : Outcome α) : Act α := do
  update (·.after o)
  orRaise .fault o.result

/-- Run one frame. -/
def tick (trace : Bool) : Act Unit := do
  let s := (← console).machine
  if s.isLive then
    let frame ← orBreach .step (runCycles trace s.breakpoints s.budget.toNat s.cpu [])
    match frame.ending with
    | .complete => finish ⟨{ s with cpu := frame.cpu.tickTimers }, frame.journal, .ok ()⟩
    | .breakpoint => finish ⟨{ s with cpu := frame.cpu, halted := true }, frame.journal, .ok ()⟩
    | .fault e =>
      finish ⟨{ s with cpu := frame.cpu }, frame.journal, .error (.invalidOpcode e)⟩

/-- Make a single step: its cycles. -/
def stepInstruction (trace : Bool) : Act Int := do
  let s := (← console).machine
  orBreach .step (checkStep s.cpu)
  finish (s.stepInstruction trace)

/-- An instruction has the operands that its text shows. -/
def checkText (word : Int) : Act Unit :=
  match Instruction.decode word with
  | .error _ => return ()
  | .ok i => do
    let _ ← orBreach .noOperand i.text

/-! ## Arguments -/

/-- The words of the arguments. -/
def wordsOf (rest : List Char) : Act (List (List Char)) :=
  orRaise .rejection (Monitor.wordsOf rest)

/-- The word at a place. -/
def wordAt (words : List (List Char)) (place : Nat) : Act (List Char) :=
  match words[place]? with
  | some word => return word
  | none => breach (.noWord place)

/-- An address. -/
def address (word : List Char) : Act Int := do
  orRaise .rejection (addressOf (← console).machine word)

/-- A number whose radix its mark tells. -/
def number (word : List Char) : Act Int :=
  orRaise .rejection (numberOf word)

/-- A hexadecimal number. -/
def hex (word : List Char) : Act Int :=
  orRaise .rejection (hexOf word)

/-- The number that the arguments consist of, or a default if there are none. -/
def count (rest : List Char) (default : Int) : Act Int :=
  if Text.trim rest = [] then return default else number rest

/-- The number in the second word, or a default if there is none. -/
def secondCount (words : List (List Char)) (default : Int) : Act Int :=
  if 1 < words.length then do number (← wordAt words 1) else return default

/-! ## Loading -/

/-- Load the image in a file: its size. -/
def loadFile (d : Directory) (path : List Char) : Act Nat := do
  let (s, n) ← orRaise (fun e => .rejection (.source e)) ((← console).machine.loadRaw d path)
  setMachine s
  return n

/-- Load the image in a file.  Files that cannot be read and programs that are too large are
handled. -/
def load (d : Directory) (rest : List Char) : Act Unit := do
  let words ← wordsOf rest
  if words = [] then print "Usage: load <file>"
  else
    let loading : Act Unit := do
      let path ← wordAt words 0
      let n ← loadFile d path
      print s!"Loaded {n} bytes from '{String.ofList path}' at 0x200"
    handling loading fun f =>
      if f.kind = .system ∨ f.kind = .value then some (printError f) else none

/-- The text in a file. -/
def readText (d : Directory) (path : List Char) : Act (List Char) :=
  orRaise (fun e => .rejection (.source e)) (d.readText path)

/-- The text in a file.  Files that cannot be opened are handled, and then there is none. -/
def openText (d : Directory) (path : List Char) : Act (Option (List Char)) :=
  let reading : Act (Option (List Char)) := do
    return some (← readText d path)
  handling reading fun f =>
    if f.kind = .system then
      some do
        print s!"Error reading '{String.ofList path}': {f.message}"
        return none
    else none

/-- The source text that the words of the arguments give, if there is one. -/
def source (d : Directory) (words : List (List Char)) : Act (Option (List Char)) := do
  let path ← wordAt words 0
  if path = ['-', 'e'] then
    if 1 < words.length then
      let text ← wordAt words 1
      return some (text.map fun ch => if ch = ';' then '\n' else ch)
    else return some []
  else openText d path

/-- The image of a source text. -/
def image (text : List Char) : Act Image :=
  match Assembly.Guarded.assemble text Memory.programStart with
  | .ok image => return image
  | .error (.fault e) => raise (.rejection (.source (.assembly e)))
  | .error (.breach b) => breach (.assembler b)

/-- Load an image. -/
def loadImage (image : Image) : Act Unit := do
  setMachine (← orRaise (fun e => .rejection (.source (.tooLarge e)))
    ((← console).machine.load image))
  print s!"Assembled {image.length} bytes at 0x200"

/-- Assemble a source text and load the program.  Texts that cannot be assembled and programs that
are too large are handled. -/
def assembleAndLoad (text : List Char) : Act Unit :=
  let assembling : Act Unit := do
    loadImage (← image text)
  handling assembling fun f =>
    match f.kind with
    | .assembly => some (print s!"Assembly error: {f.message}")
    | .value => some (printError f)
    | _ => none

/-- Assemble the source in a file or in the arguments and load the program. -/
def assemble (d : Directory) (rest : List Char) : Act Unit := do
  let words ← wordsOf rest
  if words = [] then print "Usage: asm <file.asm>  OR  asm -e \"code\""
  else
    match ← source d words with
    | none => return ()
    | some text => assembleAndLoad text

/-- Show the dialect, or choose one and reset the machine.  Dialects that do not exist are
handled. -/
def dialect (rest : List Char) : Act Unit := do
  if Text.trim rest = [] then print s!"  {(← console).machine.cpu.dialect.describe}"
  else
    let choosing : Act Bool := do
      let d ← orRaise .preset (Dialect.preset rest)
      setMachine ((← console).machine.reset (some d))
      return true
    let chosen ← handling choosing fun f =>
      if f.kind = .value then
        some do
          printError f
          return false
      else none
    if chosen then
      let name := String.ofList (Text.lower (Text.trim rest))
      print s!"  Quirks set to {name} (system reset)."

/-! ## Running -/

/-- What an action of the machine gives, if it can be carried out.  A word that is no instruction
is handled. -/
def unlessInvalid {α : Type} (act : Act α) : Act (Option α) :=
  let attempt : Act (Option α) := do
    return some (← act)
  handling attempt fun f =>
    if f.kind = .machine then
      some do
        printError f
        return none
    else none

/-- Make up to `count` single steps while the program has not stopped, until one meets a word that
is no instruction. -/
def steps (trace : Bool) : Nat → Act Unit
  | 0 => return ()
  | count + 1 => do
    let cpu := (← console).machine.cpu
    if cpu.running then
      checkText cpu.word
      match ← unlessInvalid (stepInstruction trace) with
      | some cycles =>
        print (stepLine cpu.pc cpu.word cycles)
        steps trace count
      | none => return ()
    else print "Program has stopped."

/-- Run up to `left` frames while the machine is live, after `ran` frames: the number of frames that
were run. -/
def frames (trace : Bool) (ran : Nat) : Nat → Act Nat
  | 0 => return ran
  | left + 1 => do
    if (← console).machine.isLive then
      tick trace
      frames trace (ran + 1) left
    else return ran

/-- Run up to `count` frames, until one meets a word that is no instruction. -/
def runFrames (trace : Bool) (count : Int) : Act Unit := do
  match ← unlessInvalid (frames trace 0 count.toNat) with
  | some ran => print (framesLine (← console).machine ran)
  | none => return ()

/-- Make single steps. -/
def step (trace : Bool) (rest : List Char) : Act Unit := do
  steps trace (← count rest 1).toNat

/-- Run frames, one unless another number is asked for. -/
def runTicks (trace : Bool) (rest : List Char) : Act Unit := do
  runFrames trace (← count rest 1)

/-- Run frames until something happens. -/
def run (trace : Bool) (rest : List Char) : Act Unit := do
  runFrames trace (← count rest defaultFrames)

/-- Leave a breakpoint and run. -/
def proceed (trace : Bool) (rest : List Char) : Act Unit := do
  setMachine (← console).machine.resume
  run trace rest

/-! ## Breakpoints and registers -/

/-- Set a breakpoint, or show them all. -/
def setBreakpoint (rest : List Char) : Act Unit := do
  if Text.trim rest = [] then
    match (← console).machine.breakpoints.toList with
    | [] => print "No breakpoints set."
    | addresses =>
      print "Breakpoints:"
      update (·.printAll (addresses.map fun a => s!"  {String.ofList (Hex.marked 5 a)}"))
  else
    let a ← address rest
    setMachine ((← console).machine.setBreakpoint a)
    print s!"Breakpoint set at {String.ofList (Hex.marked 5 a)}"

/-- Remove a breakpoint, or all of them. -/
def removeBreakpoint (rest : List Char) : Act Unit := do
  if Text.lower (Text.trim rest) = ['a', 'l', 'l'] then
    setMachine { (← console).machine with breakpoints := Breakpoints.empty }
    print "All breakpoints cleared."
  else
    let a ← address rest
    setMachine ((← console).machine.removeBreakpoint a)
    print s!"Breakpoint at {String.ofList (Hex.marked 5 a)} removed."

/-- Set a register. -/
def setRegister (rest : List Char) : Act Unit := do
  let words ← wordsOf rest
  if words.length < 2 then print "Usage: setreg <reg> <value>"
  else
    let name := Text.lower (← wordAt words 0)
    let v ← number (← wordAt words 1)
    match withRegister (← console).machine.cpu name v with
    | some cpu =>
      setMachine { (← console).machine with cpu }
      let shown := String.ofList (name.map Char.toUpper)
      print s!"  {shown} = {String.ofList (Hex.marked 0 v)}"
    | none => print "Unknown register."

/-! ## Memory, screen and keys -/

/-- Show memory. -/
def dump (rest : List Char) : Act Unit := do
  let words ← wordsOf rest
  if words = [] then print "Usage: dump <address> [count]"
  else
    let a ← address (← wordAt words 0)
    let n ← secondCount words 64
    update fun c => c.printAll (dumpLines c.machine.cpu.memory a n.toNat)

/-- Put the bytes that words show into memory, one after the other. -/
def writeWords (a : Int) : List (List Char) → Act Unit
  | [] => return ()
  | word :: words => do
    let v ← hex word
    let s := (← console).machine
    setMachine { s with cpu := { s.cpu with memory := s.cpu.memory.write a (UInt8.ofInt v) } }
    writeWords (a + 1) words

/-- Set memory. -/
def setMemory (rest : List Char) : Act Unit := do
  let words ← wordsOf rest
  if words.length < 2 then print "Usage: setmem <addr> <byte...>"
  else
    let a ← address (← wordAt words 0)
    writeWords a words.tail
    print s!"  Wrote {words.length - 1} bytes at {String.ofList (Hex.marked 5 a)}"

/-- Show `left` instructions from an address on. -/
def instructions (a : Int) : Nat → Act Unit
  | 0 => return ()
  | left + 1 => do
    let s := (← console).machine
    checkText (s.cpu.memory.read16 a)
    print (instructionLine s a)
    instructions (a + 2) left

/-- Show instructions. -/
def disassemble (rest : List Char) : Act Unit := do
  let words ← wordsOf rest
  let a ← if words = [] then pure (← console).machine.cpu.pc else address (← wordAt words 0)
  let n ← secondCount words 16
  instructions a n.toNat

/-- Show the screen in a frame. -/
def screen : Act Unit := do
  let s := (← console).machine.cpu.screen
  let border := "+" ++ String.ofList (List.replicate s.width '-') ++ "+"
  print border
  let text ← orRaise .noWidth (Screen.renderText s.pixels s.width)
  update (·.printAll ((text.splitOn '\n').map fun line => s!"|{String.ofList line}|"))
  print border

/-- Press or release a key. -/
def key (rest : List Char) : Act Unit := do
  let words ← wordsOf rest
  if words.length ≠ 2 then print "Usage: key down|up <0-F>"
  else
    let action ← wordAt words 0
    if action = ['d', 'o', 'w', 'n'] ∨ action = ['u', 'p'] then
      let k ← hex (← wordAt words 1)
      if 0 ≤ k ∧ k ≤ 15 then
        let s := (← console).machine
        setMachine (if action = ['u', 'p'] then s.keyUp k else s.keyDown k)
        print s!"  Key {String.ofList (Hex.capital 0 k)} {String.ofList action}"
      else print "Key must be 0-F."
    else print "Usage: key down|up <0-F>"

/-! ## Lines -/

/-- Leave the monitor. -/
def quit : Act Unit :=
  print "Goodbye."

/-- Carry out a command: whether it leaves the monitor. -/
def perform (d : Directory) (trace : Bool) (verb : Verb) (rest : List Char) : Act Bool := do
  match verb with
  | .load => load d rest
  | .asm => assemble d rest
  | .reset => update reset
  | .dialect => dialect rest
  | .step => step trace rest
  | .tick => runTicks trace rest
  | .run => run trace rest
  | .resume => update resume
  | .proceed => proceed trace rest
  | .setBreakpoint => setBreakpoint rest
  | .removeBreakpoint => removeBreakpoint rest
  | .registers => update registers
  | .setRegister => setRegister rest
  | .dump => dump rest
  | .setMemory => setMemory rest
  | .disassemble => disassemble rest
  | .screen => screen
  | .key => key rest
  | .status => update status
  | .help => update (·.printAll (Verb.helpOn rest))
  | .quit =>
    quit
    return true
  | .endOfInput =>
    print ""
    quit
    return true
  return false

/-- Answer a text that is no command. -/
def unknown (text : List Char) : Act Unit :=
  match Text.trimStart text with
  | [] => breach (.noWord 0)
  | _ :: _ => print (unknownLine text)

/-- Carry out a line, without the handler around it: whether it leaves the monitor. -/
def dispatch (d : Directory) (trace : Bool) (line : List Char) : Act Bool := do
  match Line.ofText line with
  | .blank => return false
  | .command verb rest => perform d trace verb rest
  | .unknown text =>
    unknown text
    return false

/-- Carry out a line: whether it leaves the monitor.  Malformed values are handled. -/
def onLine (d : Directory) (trace : Bool) (line : List Char) : Act Bool :=
  handling (dispatch d trace line) fun f =>
    if f.kind = .value then
      some do
        printError f
        return false
    else none

end Raising

end ChipEight.Monitor
