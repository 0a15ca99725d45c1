/-
The instructions on the processor laid out flat.

Every instruction is carried out as the machine describes it: register by register, cell by cell
and pixel by pixel, and each of these lookups is checked.  Results are cut to a byte or to an
address only where the machine does so itself, operands are used as they stand in the instruction.

Main definition: `Flat.step`, one step with all its checks.
-/
import ChipEight.Proofs.Flat.Basic
import Mathlib.Data.Int.Bitwise

namespace ChipEight.Flat

/-! ## Registers, cells, slots and keys -/

/-- What a register holds. -/
def register (f : Flat) (x : Int) : Except Fault Int :=
  access f.registers x

/-- The state with a number in a register. -/
def setRegister (f : Flat) (x v : Int) : Except Fault Flat := do
  return { f with registers := ← update f.registers x v }

/-- The state with the flag register telling whether a condition holds. -/
def setFlag (f : Flat) (condition : Bool) : Except Fault Flat :=
  f.setRegister 15 (if condition then 1 else 0)

/-- What the cell of an address holds. -/
def read (f : Flat) (address : Int) : Except Fault Int :=
  access f.memory (address % 4096)

/-- The state with the last byte of a number in the cell of an address. -/
def write (f : Flat) (address v : Int) : Except Fault Flat := do
  return { f with memory := ← update f.memory (address % 4096) (v % 256) }

/-- The word at an address. -/
def read16 (f : Flat) (address : Int) : Except Fault Int := do
  let high ← f.read address
  let low ← f.read (address + 1)
  return high * 256 + low

/-- The state with a number in a slot. -/
def setSaved (f : Flat) (k v : Int) : Except Fault Flat := do
  return { f with saved := ← update f.saved k v }

/-- Whether the key is held whose number is in a register. -/
def isHeld (f : Flat) (x : Int) : Except Fault Bool := do
  access f.keys ((← f.register x) % 16)

/-- The state with the program counter moved on by one instruction. -/
def advance (f : Flat) : Flat :=
  { f with pc := (f.pc + 2) % 65536 }

/-- The state with one instruction skipped if a condition holds. -/
def skipIf (f : Flat) (condition : Bool) : Flat :=
  if condition then f.advance else f

/-- Do something for each number below `n`. -/
def forEach (n : Nat) (body : Nat → Flat → Except Fault Flat) (f : Flat) : Except Fault Flat :=
  (List.range n).foldlM (fun f k => body k f) f

/-! ## Blocks -/

/-- Move the index register behind the block up to a register, if the dialect says so. -/
def passBlock (f : Flat) (x : Int) : Flat :=
  if f.dialect.indexAdvance then { f with index := (f.index + x + 1) % 65536 } else f

/-- Store the registers up to `x`. -/
def storeBlock (f : Flat) (x : Int) : Except Fault Flat := do
  let f ← f.forEach (x + 1).toNat fun k f => do f.write (f.index + k) (← f.register k)
  return f.passBlock x

/-- Load the registers up to `x`. -/
def loadBlock (f : Flat) (x : Int) : Except Fault Flat := do
  let f ← f.forEach (x + 1).toNat fun k f => do f.setRegister k (← f.read (f.index + k))
  return f.passBlock x

/-- Store the three decimal digits of a register. -/
def storeDecimal (f : Flat) (x : Int) : Except Fault Flat := do
  let v ← f.register x
  let f ← f.write f.index (v / 100 % 10)
  let f ← f.write (f.index + 1) (v / 10 % 10)
  f.write (f.index + 2) (v % 10)

/-- Save the registers up to `x`, as far as there are slots. -/
def saveBlock (f : Flat) (x : Int) : Except Fault Flat :=
  f.forEach (min x 7 + 1).toNat fun k f => do f.setSaved k (← f.register k)

/-- Restore the registers up to `x`, as far as there are slots. -/
def restoreBlock (f : Flat) (x : Int) : Except Fault Flat :=
  f.forEach (min x 7 + 1).toNat fun k f => do f.setRegister k (← access f.saved k)

/-! ## Arithmetic -/

/-- Put the result of an operation on two registers into the first of them, and then the flag into
the flag register. -/
def operate (f : Flat) (x y : Int) (result : Int → Int → Int) (flag : Int → Int → Bool) :
    Except Fault Flat := do
  let a ← f.register x
  let b ← f.register y
  let f ← f.setRegister x (result a b)
  f.setFlag (flag a b)

/-- Put the result of a bitwise operation on two registers into the first of them, and clear the
flag register if the dialect says so. -/
def bitwise (f : Flat) (x y : Int) (result : Int → Int → Int) : Except Fault Flat := do
  let a ← f.register x
  let b ← f.register y
  let f ← f.setRegister x (result a b)
  if f.dialect.flagReset then f.setRegister 15 0 else return f

/-- Shift a register, which is a copy of another one unless the dialect says otherwise. -/
def shift (f : Flat) (x y : Int) (result : Int → Int) (out : Int → Bool) : Except Fault Flat := do
  let f ← if f.dialect.shiftInPlace then pure f else f.setRegister x (← f.register y)
  let s ← f.register x
  let f ← f.setRegister x (result s)
  f.setFlag (out s)

/-- Add a register to the index register. -/
def addIndex (f : Flat) (x : Int) : Except Fault Flat := do
  let sum := f.index + (← f.register x)
  let f ← f.setFlag (0xFFF < sum)
  return { f with index := sum % 4096 }

/-- Put a random number up to `most` into a register. -/
def drawRandom (f : Flat) (x most : Int) : Except Fault Flat :=
  if most < 0 then .error (.emptyRange ⟨most + 1⟩)
  else
    let (k, random) := f.random.below (most + 1).toNat
    { f with random }.setRegister x k

/-- Put the lowest key that is held into a register, or repeat the instruction. -/
def awaitKey (f : Flat) (x : Int) : Except Fault Flat :=
  match f.keys.findIdx? id with
  | some k => f.setRegister x k
  | none => return { f with pc := (f.pc - 2) % 65536 }

/-! ## The screen -/

/-- The state with a dark screen in one of the resolutions. -/
def setResolution (f : Flat) (isHigh : Bool) : Flat :=
  let (width, height) := if isHigh then (128, 64) else (64, 32)
  { f with isHigh, width, height, pixels := List.replicate (width * height) false }

/-- The state with the screen moved down. -/
def scrollDown (f : Flat) (n : Int) : Flat :=
  let moved := min n.toNat f.height * f.width
  { f with
    pixels := List.replicate moved false ++ f.pixels.take (f.pixels.length - moved) }

/-- The state with every row of the screen changed. -/
def mapRows (f : Flat) (g : List Bool → List Bool) : Except Fault Flat :=
  if h : 0 < f.width then return { f with pixels := (chunks f.width h f.pixels).flatMap g }
  else .error .emptyScreen

/-- A row moved to the right by four pixels. -/
def rowRight (width : Nat) (row : List Bool) : List Bool :=
  List.replicate 4 false ++ row.take (width - 4)

/-- A row moved to the left by four pixels. -/
def rowLeft (row : List Bool) : List Bool :=
  row.drop 4 ++ List.replicate 4 false

/-- Flip the pixels on which the next `left` bits of a sprite row land, from column `column` of it
on: the pixels, and whether a lit one was among them. -/
def blit (width : Nat) (wrap : Bool) (bits count x offset column : Nat) (left : Nat)
    (pixels : List Bool) (hit : Bool) : Except Fault (List Bool × Bool) :=
  match left with
  | 0 => .ok (pixels, hit)
  | left + 1 =>
    if width ≤ x + column ∧ wrap = false then .ok (pixels, hit)
    else if bits.testBit (count - 1 - column) then do
      let place := offset + (if width ≤ x + column then x + column - width else x + column)
      let lit ← access pixels place
      let pixels ← update pixels place (!lit)
      blit width wrap bits count x offset (column + 1) left pixels (hit || lit)
    else blit width wrap bits count x offset (column + 1) left pixels hit

/-- Count one more in the flag register. -/
def countFlag (f : Flat) : Except Fault Flat := do
  f.setRegister 15 ((← f.register 15) + 1)

/-- Count a row of a large sprite that lies below the screen. -/
def countBelow (f : Flat) (isLarge : Bool) : Except Fault Flat :=
  if isLarge then f.countFlag else return f

/-- Tell in the flag register whether a row of a sprite collided. -/
def collide (f : Flat) (isLarge hit : Bool) : Except Fault Flat :=
  if hit then (if isLarge then f.countFlag else f.setFlag true) else return f

/-- A row of a sprite at the index register. -/
def spriteRow (f : Flat) (isLarge : Bool) (row : Nat) : Except Fault Int :=
  if isLarge then f.read16 (f.index + row * 2) else f.read (f.index + row)

/-- Draw a row of a sprite on row `y` of the screen. -/
def drawRow (f : Flat) (isLarge : Bool) (x y row : Nat) : Except Fault Flat := do
  let bits ← f.spriteRow isLarge row
  let count := if isLarge then 16 else 8
  let (pixels, hit) ←
    blit f.width f.dialect.spriteWrap bits.toNat count x (y * f.width) 0 count f.pixels false
  { f with pixels }.collide isLarge hit

/-- Draw the next `left` rows of a sprite, from its row `row` on. -/
def drawRows (isLarge : Bool) (x y row : Nat) (left : Nat) (f : Flat) : Except Fault Flat :=
  match left with
  | 0 => return f
  | left + 1 =>
    if f.height ≤ y + row then do
      let f ← f.countBelow isLarge
      if f.dialect.spriteWrap then
        drawRows isLarge x y (row + 1) left (← f.drawRow isLarge x (y + row - f.height) row)
      else return f
    else do
      drawRows isLarge x y (row + 1) left (← f.drawRow isLarge x (y + row) row)

/-- Draw a sprite at the place that two registers tell. -/
def drawSprite (f : Flat) (vx vy n : Int) : Except Fault Flat :=
  if f.width = 0 ∨ f.height = 0 then .error .emptyScreen
  else do
    let x := (← f.register vx) % f.width
    let y := (← f.register vy) % f.height
    let f ← f.setFlag false
    drawRows (n = 0) x.toNat y.toNat 0 (if n = 0 then 16 else n.toNat) f

/-! ## All instructions -/

/-- The state after an instruction. -/
def execute (i : Instruction) (f : Flat) : Except Fault Flat :=
  let x := i.operand .x
  let y := i.operand .y
  let kk := i.operand .kk
  let nnn := i.operand .nnn
  match i.opcode with
  | .sys => return f
  | .cls => return { f with pixels := List.replicate f.pixels.length false }
  | .ret => return { f with pc := f.stack.head?.getD 0, stack := f.stack.tail }
  | .jp =>
    return { f with running := f.running && !(f.pc == (nnn + 2) % 65536), pc := nnn }
  | .call => return { f with stack := f.pc :: f.stack, pc := nnn }
  | .seByte => do return f.skipIf ((← f.register x) == kk)
  | .sneByte => do return f.skipIf ((← f.register x) != kk)
  | .seReg => do return f.skipIf ((← f.register x) == (← f.register y))
  | .sneReg => do return f.skipIf ((← f.register x) != (← f.register y))
  | .ldByte => f.setRegister x kk
  | .addByte => do f.setRegister x (((← f.register x) + kk) % 256)
  | .ldReg => do f.setRegister x (← f.register y)
  | .or => f.bitwise x y Int.lor
  | .and => f.bitwise x y Int.land
  | .xor => f.bitwise x y Int.xor
  | .addReg => f.operate x y (fun a b => (a + b) % 256) (fun a b => 255 < a + b)
  | .sub => f.operate x y (fun a b => (a - b) % 256) (fun a b => b ≤ a)
  | .subn => f.operate x y (fun a b => (b - a) % 256) (fun a b => a ≤ b)
  | .shr => f.shift x y (fun s => s / 2) (fun s => s % 2 = 1)
  | .shl => f.shift x y (fun s => s * 2 % 256) (fun s => s / 128 % 2 = 1)
  | .ldIndex => return { f with index := nnn }
  | .jpOffset => do
    let v ← f.register (if f.dialect.jumpByDigit then x else 0)
    return { f with pc := (nnn + v) % 65536 }
  | .rnd => f.drawRandom x kk
  | .drw => f.drawSprite x y (i.operand .n)
  | .skp => do return f.skipIf (← f.isHeld x)
  | .sknp => do return f.skipIf (!(← f.isHeld x))
  | .ldFromDelay => f.setRegister x f.delay
  | .ldKey => f.awaitKey x
  | .ldDelay => do return { f with delay := ← f.register x }
  | .ldSound => do return { f with sound := ← f.register x }
  | .addIndex => f.addIndex x
  | .ldFont => do return { f with index := 5 * (← f.register x) }
  | .ldLargeFont => do return { f with index := 0x050 + 10 * (← f.register x) }
  | .ldDecimal => f.storeDecimal x
  | .store => f.storeBlock x
  | .fetch => f.loadBlock x
  | .scd => return f.scrollDown (i.operand .n)
  | .scr => f.mapRows (rowRight f.width)
  | .scl => f.mapRows rowLeft
  | .exit => return { f with running := false }
  | .low => return f.setResolution false
  | .high => return f.setResolution true
  | .save => f.saveBlock x
  | .restore => f.restoreBlock x

/-- One step: its cost and the state after it. -/
def step (f : Flat) : Except Fault (Cost × Flat) := do
  let word ← f.read16 f.pc
  match Instruction.decode word with
  | .error _ => .error (.invalidOpcode ⟨word, some f.pc⟩)
  | .ok i =>
    let waits := i.opcode = .drw ∧ f.dialect.displayWait
    return (if waits then .restOfFrame else .instruction, ← execute i f.advance)

end ChipEight.Flat
