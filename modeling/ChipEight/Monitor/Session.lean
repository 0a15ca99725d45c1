/-
The monitor as a whole: carrying out lines, and sessions of lines.

Main statements:
* `Reply.console_ofExcept`: a command that finds out beforehand leaves nothing behind when it is
  rejected;
* `machine_onLine`, `onLine_of_done`: what a line leaves behind is what its command leaves.
-/
import ChipEight.Monitor.Execution
import ChipEight.Monitor.Inspection
import ChipEight.Monitor.Verb

namespace ChipEight.Monitor

/-! ## Commands -/

/-- What a command leaves behind, and why it was rejected if it was. -/
structure Reply where
  /-- The console. -/
  console : Console
  /-- Why the command was rejected. -/
  rejection : Option Rejection

namespace Reply

/-- The reply of a command that is carried out. -/
def done (c : Console) : Reply :=
  ⟨c, none⟩

/-- The reply of a command that does nothing when it is rejected. -/
def ofExcept (c : Console) : Except Rejection Console → Reply
  | .ok c' => ⟨c', none⟩
  | .error e => ⟨c, some e⟩

theorem console_ofExcept {c : Console} {r : Except Rejection Console} {e : Rejection}
    (h : (ofExcept c r).rejection = some e) : (ofExcept c r).console = c := by
  cases r with
  | ok c' => cases h
  | error e => rfl

end Reply

/-- Leave a breakpoint and run.  The breakpoint is left even if the number of frames is
malformed. -/
def proceed (trace : Bool) (rest : List Char) (c : Console) : Reply :=
  let c := { c with machine := c.machine.resume }
  .ofExcept c (run trace rest c)

/-- Carry out a command. -/
def perform (d : Directory) (trace : Bool) (verb : Verb) (rest : List Char) (c : Console) :
    Reply :=
  match verb with
  | .load => .ofExcept c (load d rest c)
  | .asm => .ofExcept c (assemble d rest c)
  | .reset => .done (reset c)
  | .dialect => .done (dialect rest c)
  | .step => .ofExcept c (step trace rest c)
  | .tick => .ofExcept c (tick trace rest c)
  | .run => .ofExcept c (run trace rest c)
  | .resume => .done (resume c)
  | .proceed => proceed trace rest c
  | .setBreakpoint => .ofExcept c (setBreakpoint rest c)
  | .removeBreakpoint => .ofExcept c (removeBreakpoint rest c)
  | .registers => .done (registers c)
  | .setRegister => .ofExcept c (setRegister rest c)
  | .dump => .ofExcept c (dump rest c)
  | .setMemory =>
    let (c, rejection) := setMemory rest c
    ⟨c, rejection⟩
  | .disassemble => .ofExcept c (disassemble rest c)
  | .screen => .done (screen c)
  | .key => .ofExcept c (key rest c)
  | .status => .done (status c)
  | .help => .done (c.printAll (Verb.helpOn rest))
  | .quit => .done (c.print "Goodbye.")
  | .endOfInput => .done ((c.print "").print "Goodbye.")

/-- Whether the command leaves the monitor. -/
def Verb.stops : Verb → Bool
  | .quit | .endOfInput => true
  | _ => false

/-! ## Lines -/

/-- The answer to a text that is no command. -/
def unknownLine (text : List Char) : String :=
  s!"Unknown command: {Text.quoted (Text.firstWord text).1}. Type 'help' for available commands."

/-- What a line leaves behind. -/
def replyTo (d : Directory) (trace : Bool) (line : List Char) (c : Console) : Reply :=
  match Line.ofText line with
  | .blank => .done c
  | .command verb rest => perform d trace verb rest c
  | .unknown text => .done (c.print (unknownLine text))

/-- Whether a line ends the session. -/
def stops (line : List Char) : Bool :=
  match Line.ofText line with
  | .command verb _ => verb.stops
  | _ => false

/-- Carry out a line and print why it was rejected, if it was. -/
def onLine (d : Directory) (trace : Bool) (line : List Char) (c : Console) : Console :=
  let r := replyTo d trace line c
  match r.rejection with
  | some e => r.console.printError e.message
  | none => r.console

theorem machine_onLine (d : Directory) (trace : Bool) (line : List Char) (c : Console) :
    (onLine d trace line c).machine = (replyTo d trace line c).console.machine := by
  rw [onLine]
  split <;> rfl

theorem onLine_of_done {d : Directory} {trace : Bool} {line rest : List Char} {verb : Verb}
    {c c' : Console} (hline : Line.ofText line = .command verb rest)
    (h : perform d trace verb rest c = .done c') : onLine d trace line c = c' := by
  rw [onLine, replyTo, hline]
  dsimp only
  rw [h]
  rfl

/-- The file that a line reads, if it reads one. -/
def fileOf? (line : List Char) : Option (List Char) :=
  match Line.ofText line with
  | .command .load rest | .command .asm rest =>
    match Text.Words.split rest with
    | .ok (path :: _) => some path
    | _ => none
  | _ => none

/-! ## Sessions -/

/-- What is printed at the beginning of a session. -/
def greeting : List String :=
  ["",
    "╔══════════════════════════════════════════════════════════╗",
    "║             CHIP-8 Debug Monitor                         ║",
    "║   Type 'help' for commands.  'quit' to exit.             ║",
    "╚══════════════════════════════════════════════════════════╝",
    ""]

/-- What is printed before a line is read. -/
def prompt : String := "CHIP8> "

/-- The line that the end of the input stands for. -/
def endOfInputLine : List Char := ['E', 'O', 'F']

/-- Carry out lines, each after a prompt, until one ends the session or the input ends. -/
def runLines (d : Directory) (trace : Bool) (c : Console) : List (List Char) → Console
  | [] => onLine d trace endOfInputLine { c with printed := c.printed ++ prompt }
  | line :: rest =>
    let c := onLine d trace line { c with printed := c.printed ++ prompt }
    if stops line then c else runLines d trace c rest

/-- A session with the lines of the input. -/
def session (d : Directory) (trace : Bool) (s : Machine) (lines : List (List Char)) : Console :=
  runLines d trace ((Console.ofMachine s).printAll greeting) lines

end ChipEight.Monitor
