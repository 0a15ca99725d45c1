/-
Dialects: what differs between the machines of the family.

A dialect is chosen when the machine is set up, and each of its flags concerns a few
instructions.
-/
import ChipEight.Text.Case
import ChipEight.Text.Quoted
import ChipEight.Text.Trim

namespace ChipEight

/-- The flags in which the machines of the family differ. -/
structure Dialect where
  /-- The bitwise operations clear the flag register. -/
  flagReset : Bool := true
  /-- Storing and loading a block of registers moves the index register behind the block. -/
  indexAdvance : Bool := true
  /-- Drawing waits for the next frame. -/
  displayWait : Bool := true
  /-- Sprites wrap around at the edges of the screen instead of being clipped. -/
  spriteWrap : Bool := false
  /-- A flag for drawing in high resolution, which no instruction heeds. -/
  highResFlag : Bool := false
  /-- Shifts work on the register in place instead of on a copy of the other register. -/
  shiftInPlace : Bool := false
  /-- A jump with offset adds the register that the high digit of its address names. -/
  jumpByDigit : Bool := false
  deriving DecidableEq, Repr

namespace Dialect

/-- The first machine of the family. -/
def chip8 : Dialect := {}

/-- The machine on a pocket calculator. -/
def superchip : Dialect where
  flagReset := false
  indexAdvance := false
  displayWait := false
  highResFlag := true
  shiftInPlace := true
  jumpByDigit := true

/-- The extended machine of today. -/
def xochip : Dialect where
  flagReset := false
  displayWait := false
  spriteWrap := true

/-- The presets by their names. -/
def presets : List (String × Dialect) :=
  [("chip8", chip8), ("superchip", superchip), ("xochip", xochip)]

/-- The flags with the names under which they are shown. -/
def flags (d : Dialect) : List (String × Bool) :=
  [("vf_reset", d.flagReset), ("memory", d.indexAdvance), ("display_wait", d.displayWait),
    ("sprite_wrapping", d.spriteWrap), ("hires_draw_flag", d.highResFlag),
    ("shifting", d.shiftInPlace), ("jumping", d.jumpByDigit)]

/-- The names of the flags that are set. -/
def describe (d : Dialect) : String :=
  match (d.flags.filter (·.2)).map (·.1) with
  | [] => "none"
  | names => ", ".intercalate names

/-- A preset of this name is unknown. -/
structure UnknownPreset where
  /-- The name that was given. -/
  name : List Char
  deriving DecidableEq, Repr

/-- The wording of the error. -/
def UnknownPreset.message (e : UnknownPreset) : String :=
  let known := ", ".intercalate (presets.map (·.1))
  s!"Unknown quirks preset {Text.quoted e.name} (expected one of: {known})"

/-- The preset of the given name, in which neither blanks at the ends nor capitals matter. -/
def preset (name : List Char) : Except UnknownPreset Dialect :=
  match presets.lookup (String.ofList (Text.lower (Text.trim name))) with
  | some d => .ok d
  | none => .error ⟨name⟩

end Dialect

end ChipEight
