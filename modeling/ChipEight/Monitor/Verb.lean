/-
The commands of the monitor: their words and the help on them.

A line is a command word, which consists of letters, digits and underscores, and what follows
it.  A question mark in front of a line asks for help.
-/
import ChipEight.Text.Columns
import ChipEight.Text.Quoted
import ChipEight.Text.Trim

namespace ChipEight.Monitor

/-- The commands of the monitor. -/
inductive Verb
  /-- Load an image. -/
  | load
  /-- Assemble and load. -/
  | asm
  /-- Reset the machine. -/
  | reset
  /-- Show or choose the dialect. -/
  | dialect
  /-- Make single steps. -/
  | step
  /-- Run frames. -/
  | tick
  /-- Run until something happens. -/
  | run
  /-- Leave a breakpoint. -/
  | resume
  /-- Leave a breakpoint and run. -/
  | proceed
  /-- Set or show breakpoints. -/
  | setBreakpoint
  /-- Remove breakpoints. -/
  | removeBreakpoint
  /-- Show the registers. -/
  | registers
  /-- Set a register. -/
  | setRegister
  /-- Show memory. -/
  | dump
  /-- Set memory. -/
  | setMemory
  /-- Show instructions. -/
  | disassemble
  /-- Show the screen. -/
  | screen
  /-- Press or release a key. -/
  | key
  /-- Show the state of the machine. -/
  | status
  /-- Show help. -/
  | help
  /-- Leave the monitor. -/
  | quit
  /-- Leave the monitor at the end of the input. -/
  | endOfInput
  deriving DecidableEq, Repr

namespace Verb

/-- The words of the commands, in alphabetical order. -/
def words : List (String × Verb) :=
  [("EOF", endOfInput), ("asm", asm), ("bp", setBreakpoint), ("bpd", removeBreakpoint),
    ("c", proceed), ("continue", proceed), ("disasm", disassemble), ("dump", dump),
    ("exit", quit), ("help", help), ("key", key), ("load", load), ("q", quit),
    ("quirks", dialect), ("quit", quit), ("regs", registers), ("reset", reset),
    ("resume", resume), ("run", run), ("screen", screen), ("setmem", setMemory),
    ("setreg", setRegister), ("status", status), ("step", step), ("tick", tick)]

/-- The command of the given word. -/
def ofWord? (word : List Char) : Option Verb :=
  words.lookup (String.ofList word)

/-- The help on a command.  There is none on the end of the input. -/
def help? : Verb → Option String
  | load => some "Load a raw program image at 0x200: load <file.ch8>"
  | asm => some "Assemble source and load: asm <file.asm>
        Or inline:  asm -e \"ld v0, 1; jp 0x202\" "
  | reset => some "Reset the CPU and reload the current program."
  | dialect => some "Show or select the quirks preset: quirks [chip8|superchip|xochip]
        Selecting a preset resets the machine."
  | step => some "Step N instructions: step [count]"
  | tick => some "Run N frames (60 Hz ticks): tick [count]"
  | run => some "Run until the program stops or a breakpoint hits: run [max_ticks]"
  | resume => some "Clear a breakpoint halt (then 'run' or 'tick')."
  | proceed => some "Resume from a breakpoint and keep running: continue [max_ticks]"
  | setBreakpoint => some "Set breakpoint: bp <address>"
  | removeBreakpoint => some "Delete breakpoint: bpd <address|all>"
  | registers => some "Show CPU registers."
  | setRegister => some "Set register: setreg <V0-VF|I|PC|DT|ST> <value>"
  | dump => some "Hex dump memory: dump <address> [count]
        Count defaults to 64 bytes."
  | setMemory => some "Set memory bytes: setmem <address> <byte> [byte] ..."
  | disassemble => some "Disassemble: disasm [address] [count]
        Defaults to current PC, 16 instructions."
  | screen => some "Print the video buffer as text."
  | key => some "Press or release a key: key down|up <0-F>"
  | status => some "Show full system status."
  | help => some "List available commands with \"help\" or detailed help with \"help cmd\"."
  | quit => some "Exit the monitor."
  | endOfInput => none

/-- A heading, ruled, with names in columns and an empty line below it; nothing if there are no
names. -/
def topics (heading : String) (names : List String) : List String :=
  if names.isEmpty then []
  else
    let rule := String.ofList (List.replicate heading.length '=')
    [heading, rule] ++ Text.Columns.layout 79 names ++ [""]

/-- The table of all commands. -/
def table : List String :=
  let (known, unknown) := words.partition fun (_, v) => v.help?.isSome
  [""] ++ topics "Documented commands (type help <topic>):" (known.map (·.1)) ++
    topics "Undocumented commands:" (unknown.map (·.1))

/-- The help on a topic. -/
def helpOn (topic : List Char) : List String :=
  if topic = [] then table
  else
    match (ofWord? topic).bind help? with
    | some text => [text]
    | none => [s!"*** No help on {String.ofList topic}"]

end Verb

/-! ## Lines -/

/-- What a line asks for. -/
inductive Line
  /-- Nothing. -/
  | blank
  /-- A command, with what follows its word. -/
  | command (verb : Verb) (rest : List Char)
  /-- Something that is no command. -/
  | unknown (text : List Char)
  deriving DecidableEq, Repr

namespace Line

/-- Whether the character may stand in a command word. -/
def isWordChar (c : Char) : Bool :=
  c.isAlphanum || c == '_'

/-- What a line asks for that is trimmed and does not begin with a question mark. -/
def ofTrimmed (s : List Char) : Line :=
  match Verb.ofWord? (s.takeWhile isWordChar) with
  | some v => .command v (Text.trim (s.dropWhile isWordChar))
  | none => .unknown s

/-- What a line asks for. -/
def ofText (s : List Char) : Line :=
  match Text.trim s with
  | [] => .blank
  | '?' :: topic => ofTrimmed (['h', 'e', 'l', 'p', ' '] ++ topic)
  | s => ofTrimmed s

end Line

end ChipEight.Monitor
