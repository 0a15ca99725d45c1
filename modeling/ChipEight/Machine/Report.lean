/-
Reports on the registers and the state of a machine.
-/
import ChipEight.Machine.Basic

namespace ChipEight

namespace Cpu

/-- One register in a report. -/
def registerReport (c : Cpu) (x : Fin 16) : String :=
  let name := String.ofList (Hex.capital 0 x.val)
  let value := String.ofList (Hex.marked 4 (c.register x).toNat)
  s!"V{name}={value}"

/-- The registers in a report, four to a line. -/
def registerLines (c : Cpu) : List String :=
  [0, 4, 8, 12].map fun (k : Fin 16) =>
    "  " ++ "  ".intercalate ([k, k + 1, k + 2, k + 3].map c.registerReport)

/-- The return addresses in a report, the latest last. -/
def stackReport (c : Cpu) : String :=
  match c.stack with
  | [] => "empty"
  | _ => " ".intercalate (c.stack.reverse.map fun a => String.ofList (Hex.marked 5 a))

/-- The report on registers, timers, stack and screen. -/
def report (c : Cpu) : List String :=
  let index := String.ofList (Hex.marked 6 c.index)
  let pc := String.ofList (Hex.marked 6 c.pc)
  let delay := String.ofList (Hex.marked 4 c.delay)
  let sound := String.ofList (Hex.marked 4 c.sound)
  c.registerLines ++
    [s!"  I={index}  PC={pc}  DT={delay}  ST={sound}",
      s!"  Stack: {c.stackReport}",
      s!"  Mode: {c.screen.resolution.name} {c.screen.width}x{c.screen.height}  " ++
        s!"running={truthText c.running}"]

end Cpu

namespace Machine

/-- The breakpoints in a report. -/
def breakpointLines (s : Machine) : List String :=
  match s.breakpoints.toList with
  | [] => []
  | addresses =>
    ["  breakpoints: " ++ " ".intercalate (addresses.map fun a => String.ofList (Hex.marked 5 a))]

/-- The report on the whole machine. -/
def report (s : Machine) : List String :=
  [s!"CHIP-8 system  quirks: {s.cpu.dialect.describe}",
    s!"  clock={s.clock} Hz  {s.budget} cycles/tick",
    s!"  running={truthText s.cpu.running}  halted={truthText s.halted}",
    s!"  program: {s.program.length} bytes"] ++
    s.breakpointLines ++ s.cpu.report

end Machine

end ChipEight
