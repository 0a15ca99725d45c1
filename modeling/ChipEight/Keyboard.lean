/-
The keyboard of the host: sixteen of its keys stand for the keys of the machine, and a few
others serve the debugger.
-/
import ChipEight.Screen.Render
import ChipEight.Machine.Run

namespace ChipEight

/-- A machine at the keyboard, with the flag that tells whether it is stepped by hand. -/
structure Panel where
  /-- The machine. -/
  machine : Machine
  /-- Whether the machine is stepped by hand. -/
  stepping : Bool

namespace Keyboard

/-- The keys of the host that stand for keys of the machine. -/
def pad : List (Char × Int) :=
  [('1', 0x1), ('2', 0x2), ('3', 0x3), ('4', 0xC),
    ('q', 0x4), ('w', 0x5), ('e', 0x6), ('r', 0xD),
    ('a', 0x7), ('s', 0x8), ('d', 0x9), ('f', 0xE),
    ('z', 0xA), ('x', 0x0), ('c', 0xB), ('v', 0xF)]

/-- The key of the machine that the key of a name stands for. -/
def padKey? : List Char → Option Int
  | [c] => pad.lookup c
  | _ => none

end Keyboard

namespace Panel

/-- A panel on which a key was pressed, with what was reported, the latest first, and the fault
of a step that failed. -/
structure Press where
  /-- The panel. -/
  panel : Panel
  /-- What was reported. -/
  journal : List Event
  /-- The fault. -/
  fault : Option Fault

/-- Make a step by hand. -/
def step (p : Panel) (trace : Bool) : Press :=
  let o := p.machine.stepInstruction trace
  match o.result with
  | .ok _ => ⟨⟨o.machine, true⟩, .stepped o.machine.cpu.status :: o.journal, none⟩
  | .error e => ⟨⟨o.machine, true⟩, o.journal, some e⟩

/-- Press the key of a name: a key of the pad, `j` for a step, `k` to leave stepping, `l` to go on
after a breakpoint, `m` for the status, `p` for the screen. -/
def press (p : Panel) (trace : Bool) (name : List Char) : Press :=
  match Keyboard.padKey? name with
  | some k => ⟨{ p with machine := p.machine.keyDown k }, [], none⟩
  | none =>
    match name with
    | ['j'] => p.step trace
    | ['k'] => ⟨{ p with stepping := false }, [], none⟩
    | ['l'] =>
      if p.machine.halted then
        ⟨{ p with machine := p.machine.resume }, [.resuming p.machine.cpu.pc], none⟩
      else ⟨p, [], none⟩
    | ['m'] => ⟨p, [.status p.machine.cpu.status], none⟩
    | ['p'] => ⟨p, [.screen p.machine.cpu.screen.width p.machine.cpu.screen.text], none⟩
    | _ => ⟨p, [], none⟩

end Panel

end ChipEight
