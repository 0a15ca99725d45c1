/-
Commands that show and change breakpoints, registers, memory and keys.

Setting memory is the one of these commands that may leave something behind when it is
rejected; the others are rejected before they change anything.
-/
import ChipEight.Disassembly
import ChipEight.Monitor.Console
import ChipEight.Screen.Render
import ChipEight.Machine.Report

namespace ChipEight.Monitor

/-! ## Breakpoints -/

/-- Set a breakpoint, or show them all. -/
def setBreakpoint (rest : List Char) (c : Console) : Except Rejection Console :=
  if Text.trim rest = [] then
    match c.machine.breakpoints.toList with
    | [] => .ok (c.print "No breakpoints set.")
    | addresses =>
      .ok ((c.print "Breakpoints:").printAll
        (addresses.map fun a => s!"  {String.ofList (Hex.marked 5 a)}"))
  else do
    let address ← addressOf c.machine rest
    return { c with machine := c.machine.setBreakpoint address }.print
      s!"Breakpoint set at {String.ofList (Hex.marked 5 address)}"

/-- Remove a breakpoint, or all of them. -/
def removeBreakpoint (rest : List Char) (c : Console) : Except Rejection Console :=
  if Text.lower (Text.trim rest) = ['a', 'l', 'l'] then
    .ok ({ c with machine := { c.machine with breakpoints := Breakpoints.empty } }.print
      "All breakpoints cleared.")
  else do
    let address ← addressOf c.machine rest
    return { c with machine := c.machine.removeBreakpoint address }.print
      s!"Breakpoint at {String.ofList (Hex.marked 5 address)} removed."

/-! ## Registers -/

/-- Show the registers. -/
def registers (c : Console) : Console :=
  c.printAll c.machine.cpu.report

/-- The processor with a number in the register of a name, as far as the register can hold it. -/
def withRegister (cpu : Cpu) (name : List Char) (v : Int) : Option Cpu :=
  match name with
  | ['p', 'c'] => some { cpu with pc := v % 65536 }
  | ['i'] => some { cpu with index := v % 65536 }
  | ['d', 't'] => some { cpu with delay := v % 256 }
  | ['s', 't'] => some { cpu with sound := v % 256 }
  | ['v', d] =>
    (Literal.digitValue? 16 d).map fun x => cpu.setRegister (Fin.ofNat 16 x) (UInt8.ofInt v)
  | _ => none

/-- Set a register. -/
def setRegister (rest : List Char) (c : Console) : Except Rejection Console := do
  match ← wordsOf rest with
  | name :: valueText :: _ =>
    let name := Text.lower name
    let v ← numberOf valueText
    match withRegister c.machine.cpu name v with
    | some cpu =>
      let shown := String.ofList (name.map Char.toUpper)
      return { c with machine := { c.machine with cpu } }.print
        s!"  {shown} = {String.ofList (Hex.marked 0 v)}"
    | none => return c.print "Unknown register."
  | _ => return c.print "Usage: setreg <reg> <value>"

/-! ## Memory -/

/-- The bytes of `count` cells from an address on. -/
def bytesAt (m : Memory) (address : Int) (count : Nat) : List UInt8 :=
  (List.range count).map fun (k : Nat) => m.read (address + k)

/-- A line of a dump. -/
def dumpLine (m : Memory) (address : Int) (count : Nat) : String :=
  let shown := (bytesAt m address count).map fun b => String.ofList (Hex.byte b)
  let left := " ".intercalate (shown.take 8)
  let right := " ".intercalate (shown.drop 8)
  s!"  {String.ofList (Hex.marked 5 (address % 4096))}: {left}  {right}"

/-- The lines of a dump, of sixteen bytes each. -/
def dumpLines (m : Memory) (address : Int) (count : Nat) : List String :=
  (List.range ((count + 15) / 16)).map fun (k : Nat) =>
    dumpLine m (address + 16 * k) (min 16 (count - 16 * k))

/-- Show memory. -/
def dump (rest : List Char) (c : Console) : Except Rejection Console := do
  match ← wordsOf rest with
  | [] => return c.print "Usage: dump <address> [count]"
  | word :: more =>
    let address ← addressOf c.machine word
    let count ← secondCountOf (word :: more) 64
    return c.printAll (dumpLines c.machine.cpu.memory address count.toNat)

/-- Put the bytes that words show into memory, up to the first word that shows none. -/
def writeWords (m : Memory) (address : Int) : List (List Char) → Memory × Option Rejection
  | [] => (m, none)
  | word :: words =>
    match hexOf word with
    | .ok v => writeWords (m.write address (UInt8.ofInt v)) (address + 1) words
    | .error e => (m, some e)

/-- Set memory.  The bytes before a word that shows none are set all the same. -/
def setMemory (rest : List Char) (c : Console) : Console × Option Rejection :=
  match wordsOf rest with
  | .error e => (c, some e)
  | .ok (word :: first :: more) =>
    match addressOf c.machine word with
    | .error e => (c, some e)
    | .ok address =>
      let (memory, rejection) := writeWords c.machine.cpu.memory address (first :: more)
      let c := { c with machine := { c.machine with cpu := { c.machine.cpu with memory } } }
      match rejection with
      | some e => (c, some e)
      | none =>
        let place := String.ofList (Hex.marked 5 address)
        (c.print s!"  Wrote {more.length + 1} bytes at {place}", none)
  | .ok _ => (c.print "Usage: setmem <addr> <byte...>", none)

/-- A line of a disassembly, with marks for the program counter and for breakpoints. -/
def instructionLine (s : Machine) (address : Int) : String :=
  let mark := if address = s.cpu.pc then ">>>" else "   "
  let star := if address ∈ s.breakpoints then "*" else " "
  let word := s.cpu.memory.read16 address
  let text := String.ofList (Disassembly.wordText word)
  s!"  {mark}{star}{String.ofList (Hex.marked 5 address)}: " ++
    s!"{String.ofList (Hex.bare 4 word)}  {text}"

/-- Show instructions. -/
def disassemble (rest : List Char) (c : Console) : Except Rejection Console := do
  let words ← wordsOf rest
  let address ←
    match words.head? with
    | some word => addressOf c.machine word
    | none => .ok c.machine.cpu.pc
  let count ← secondCountOf words 16
  return c.printAll
    ((List.range count.toNat).map fun (k : Nat) => instructionLine c.machine (address + 2 * k))

/-! ## Screen and keys -/

/-- Show the screen in a frame. -/
def screen (c : Console) : Console :=
  let border := "+" ++ String.ofList (List.replicate c.machine.cpu.screen.width '-') ++ "+"
  ((c.print border).printAll
    (c.machine.cpu.screen.textLines.map fun line => s!"|{String.ofList line}|")).print border

/-- Press or release a key. -/
def key (rest : List Char) (c : Console) : Except Rejection Console := do
  match ← wordsOf rest with
  | [action, word] =>
    if action = ['d', 'o', 'w', 'n'] ∨ action = ['u', 'p'] then
      let k ← hexOf word
      if 0 ≤ k ∧ k ≤ 15 then
        let s := if action = ['u', 'p'] then c.machine.keyUp k else c.machine.keyDown k
        return { c with machine := s }.print
          s!"  Key {String.ofList (Hex.capital 0 k)} {String.ofList action}"
      else return c.print "Key must be 0-F."
    else return c.print "Usage: key down|up <0-F>"
  | _ => return c.print "Usage: key down|up <0-F>"

/-- Show the state of the machine. -/
def status (c : Console) : Console :=
  c.printAll c.machine.report

end ChipEight.Monitor
