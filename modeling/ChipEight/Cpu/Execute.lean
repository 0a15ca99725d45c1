/-
What each instruction does to the processor.

`execute` applies one instruction without fetching it: the program counter has already moved on
when it runs.  Immediate operands are whole numbers, and what is stored in a register is their
last byte.

Main statement: `dialect_execute`, no instruction changes the dialect.
-/
import ChipEight.Cpu.Basic
import ChipEight.Instruction.Basic
import ChipEight.Screen.Sprite

namespace ChipEight.Cpu

/-! ## Arithmetic -/

/-- Put the result of an operation into register `x` and then the flag into the flag register,
which wins if the two are the same. -/
def setResult (c : Cpu) (x : Fin 16) (result : UInt8) (condition : Bool) : Cpu :=
  (c.setRegister x result).setFlag condition

/-- Put the result of a bitwise operation into register `x` and clear the flag register if the
dialect says so. -/
def setBitwise (c : Cpu) (x : Fin 16) (result : UInt8) : Cpu :=
  let c := c.setRegister x result
  if c.dialect.flagReset then c.setRegister flag 0 else c

/-- The register whose value is shifted into `x`. -/
def shiftSource (c : Cpu) (x y : Fin 16) : Fin 16 :=
  if c.dialect.shiftInPlace then x else y

/-- Add a register to the index register; the flag register tells whether the sum has more than
twelve bits. -/
def addIndex (c : Cpu) (x : Fin 16) : Cpu :=
  let sum := c.index + (c.register x).toNat
  { c.setFlag (0xFFF < sum) with index := sum % 4096 }

/-! ## Blocks -/

/-- The number of registers from `V0` to the one of a number; none if the number is negative. -/
def blockLength (last : Int) : Nat :=
  min 16 (last + 1).toNat

theorem blockLength_val (x : Fin 16) : blockLength x.val = x.val + 1 := by
  rw [blockLength]
  omega

/-- The registers from `V0` to the one of a number. -/
def block (c : Cpu) (last : Int) : List UInt8 :=
  c.registers.toList.take (blockLength last)

/-- Put bytes into the registers from `k` on. -/
def setBlock (c : Cpu) (k : Nat) : List UInt8 → Cpu
  | [] => c
  | b :: s =>
    (if h : k < 16 then c.setRegister ⟨k, h⟩ b else c).setBlock (k + 1) s

/-- Move the index register behind a block that ends with the register of a number, if the dialect
says so. -/
def passBlock (c : Cpu) (last : Int) : Cpu :=
  if c.dialect.indexAdvance then { c with index := address16 (c.index + last + 1) } else c

/-- Store the registers from `V0` to the one of a number in memory. -/
def storeBlock (c : Cpu) (last : Int) : Cpu :=
  { c with memory := c.memory.writeBlock c.index (c.block last) }.passBlock last

/-- Load the registers from `V0` to the one of a number from memory. -/
def loadBlock (c : Cpu) (last : Int) : Cpu :=
  let bytes := (List.range (blockLength last)).map fun (k : Nat) => c.memory.read (c.index + k)
  (c.setBlock 0 bytes).passBlock last

/-- Store the hundreds, tens and units of register `x` in memory. -/
def storeDecimal (c : Cpu) (x : Fin 16) : Cpu :=
  let v := c.register x
  { c with memory := c.memory.writeBlock c.index [v / 100 % 10, v / 10 % 10, v % 10] }

/-- Save the registers from `V0` to the one of a number, as far as there are slots. -/
def saveBlock (c : Cpu) (last : Int) : Cpu :=
  { c with saved := Vector.ofFn fun k =>
      if (k.val : Int) ≤ last then c.register (k.castLE (by decide)) else c.saved[k] }

/-- Restore the registers from `V0` to the one of a number, as far as there are slots. -/
def restoreBlock (c : Cpu) (last : Int) : Cpu :=
  c.setBlock 0 (c.saved.toList.take (blockLength last))

/-! ## Drawing -/

/-- The rows of a small sprite of `height` rows at the index register. -/
def smallSprite (c : Cpu) (height : Nat) : List (BitVec 8) :=
  (List.range height).map fun (k : Nat) => (c.memory.read (c.index + k)).toBitVec

/-- The sixteen rows of a large sprite at the index register. -/
def largeSprite (c : Cpu) : List (BitVec 16) :=
  (List.range 16).map fun (k : Nat) => BitVec.ofNat 16 (c.memory.read16 (c.index + 2 * k))

/-- Draw a sprite at the place that two registers tell.  A sprite of height zero is a large one:
the flag register then counts the rows that made a lit pixel dark and those below the screen;
otherwise it tells whether some row made a lit pixel dark. -/
def drawSprite (c : Cpu) (vx vy : Fin 16) (height : Int) : Cpu :=
  let x := (c.register vx).toNat % c.screen.width
  let y := (c.register vy).toNat % c.screen.height
  let wrap := c.dialect.spriteWrap
  -- The flag register is set last, so that it may serve as one of the coordinates.
  if height = 0 then
    let below := Screen.overhang c.screen.height wrap y
    let d := c.screen.draw wrap x y c.largeSprite
    { c with screen := d.screen }.setRegister flag (UInt8.ofNat (d.collisions + below))
  else
    -- Rows beyond a second screenful land nowhere.
    let rows := min height.toNat (2 * c.screen.height)
    let d := c.screen.draw wrap x y (c.smallSprite rows)
    { c with screen := d.screen }.setFlag (d.collisions ≠ 0)

/-! ## Keys and random numbers -/

/-- Put the lowest key that is held into register `x`, or repeat the instruction if there is
none. -/
def awaitKey (c : Cpu) (x : Fin 16) : Cpu :=
  match c.heldKeys with
  | k :: _ => c.setRegister x (UInt8.ofNat k)
  | [] => { c with pc := address16 (c.pc - 2) }

/-- Put a random number up to `most` into register `x`. -/
def drawRandom (c : Cpu) (x : Fin 16) (most : Int) : Cpu :=
  let (k, random) := c.random.below (most + 1).toNat
  { c with random }.setRegister x (UInt8.ofNat k)

/-! ## All instructions -/

/-- Whether a jump to `target` leads back to itself: the machine stops at such a jump. -/
def isSelfJump (c : Cpu) (target : Int) : Bool :=
  c.pc == address16 (target + 2)

/-- The processor after an instruction. -/
def execute (i : Instruction) (c : Cpu) : Cpu :=
  match i.opcode with
  | .sys => c
  | .cls => { c with screen := Screen.dark c.screen.resolution }
  | .ret => { c.pop.2 with pc := c.pop.1 }
  -- A program that has come to wait in a jump to itself is over.
  | .jp => { c with running := c.running && !c.isSelfJump i.nnn, pc := i.nnn }
  | .call => { c.push c.pc with pc := i.nnn }
  | .seByte => c.skipIf ((c.register i.x).toNat == i.kk)
  | .sneByte => c.skipIf ((c.register i.x).toNat != i.kk)
  | .seReg => c.skipIf (c.register i.x == c.register i.y)
  | .sneReg => c.skipIf (c.register i.x != c.register i.y)
  | .ldByte => c.setRegister i.x (UInt8.ofInt i.kk)
  | .addByte => c.setRegister i.x (c.register i.x + UInt8.ofInt i.kk)
  | .ldReg => c.setRegister i.x (c.register i.y)
  | .or => c.setBitwise i.x (c.register i.x ||| c.register i.y)
  | .and => c.setBitwise i.x (c.register i.x &&& c.register i.y)
  | .xor => c.setBitwise i.x (c.register i.x ^^^ c.register i.y)
  | .addReg =>
    let a := c.register i.x
    let b := c.register i.y
    c.setResult i.x (a + b) (255 < a.toNat + b.toNat)
  | .sub =>
    let a := c.register i.x
    let b := c.register i.y
    c.setResult i.x (a - b) (b ≤ a)
  | .subn =>
    let a := c.register i.x
    let b := c.register i.y
    c.setResult i.x (b - a) (a ≤ b)
  | .shr =>
    let s := c.register (c.shiftSource i.x i.y)
    c.setResult i.x (s >>> 1) (s &&& 1 == 1)
  | .shl =>
    let s := c.register (c.shiftSource i.x i.y)
    c.setResult i.x (s <<< 1) (128 ≤ s)
  | .ldIndex => { c with index := i.nnn }
  | .jpOffset =>
    let r := if c.dialect.jumpByDigit then i.x else 0
    { c with pc := address16 (i.nnn + (c.register r).toNat) }
  | .rnd => c.drawRandom i.x i.kk
  | .drw => c.drawSprite i.x i.y i.n
  | .skp => c.skipIf (c.isHeld (key (c.register i.x).toNat))
  | .sknp => c.skipIf (!c.isHeld (key (c.register i.x).toNat))
  | .ldFromDelay => c.setRegister i.x (UInt8.ofInt c.delay)
  | .ldKey => c.awaitKey i.x
  | .ldDelay => { c with delay := (c.register i.x).toNat }
  | .ldSound => { c with sound := (c.register i.x).toNat }
  | .addIndex => c.addIndex i.x
  | .ldFont => { c with index := Font.smallBase + Font.smallRows * (c.register i.x).toNat }
  | .ldLargeFont => { c with index := Font.largeBase + Font.largeRows * (c.register i.x).toNat }
  | .ldDecimal => c.storeDecimal i.x
  | .store => c.storeBlock (i.operand .x)
  | .fetch => c.loadBlock (i.operand .x)
  | .scd => { c with screen := c.screen.scrollDown i.n.toNat }
  | .scr => { c with screen := c.screen.scrollRight }
  | .scl => { c with screen := c.screen.scrollLeft }
  | .exit => { c with running := false }
  | .low => { c with screen := Screen.dark .low }
  | .high => { c with screen := Screen.dark .high }
  | .save => c.saveBlock (i.operand .x)
  | .restore => c.restoreBlock (i.operand .x)

/-! ## Instructions that are given -/

/-- A random number is asked for that is below a bound which is not positive. -/
structure EmptyRange where
  /-- The bound. -/
  bound : Int
  deriving DecidableEq, Repr

/-- The wording of the error. -/
def EmptyRange.message (e : EmptyRange) : String :=
  s!"empty range for randrange() (0, {e.bound}, {e.bound})"

/-- The processor after an instruction that does not come from a word, so that its operands may be
out of range: a random number up to a negative number cannot be had. -/
def executeGiven (i : Instruction) (c : Cpu) : Except EmptyRange Cpu :=
  if i.opcode = .rnd ∧ i.kk < 0 then .error ⟨i.kk + 1⟩ else .ok (c.execute i)

/-! ## The dialect stays -/

@[simp] theorem dialect_setRegister (c : Cpu) (x : Fin 16) (b : UInt8) :
    (c.setRegister x b).dialect = c.dialect := rfl

@[simp] theorem dialect_setFlag (c : Cpu) (condition : Bool) :
    (c.setFlag condition).dialect = c.dialect := rfl

@[simp] theorem dialect_setResult (c : Cpu) (x : Fin 16) (b : UInt8) (condition : Bool) :
    (c.setResult x b condition).dialect = c.dialect := rfl

@[simp] theorem dialect_setBitwise (c : Cpu) (x : Fin 16) (b : UInt8) :
    (c.setBitwise x b).dialect = c.dialect := by
  unfold setBitwise
  dsimp only
  split <;> rfl

@[simp] theorem dialect_skipIf (c : Cpu) (condition : Bool) :
    (c.skipIf condition).dialect = c.dialect := by
  unfold skipIf
  split <;> rfl

@[simp] theorem dialect_setBlock (c : Cpu) (k : Nat) (s : List UInt8) :
    (c.setBlock k s).dialect = c.dialect := by
  induction s generalizing c k with
  | nil => rfl
  | cons b s ih =>
    rw [setBlock, ih]
    split <;> rfl

@[simp] theorem dialect_passBlock (c : Cpu) (last : Int) :
    (c.passBlock last).dialect = c.dialect := by
  unfold passBlock
  split <;> rfl

@[simp] theorem dialect_drawSprite (c : Cpu) (x y : Fin 16) (height : Int) :
    (c.drawSprite x y height).dialect = c.dialect := by
  unfold drawSprite
  dsimp only
  split <;> rfl

@[simp] theorem dialect_awaitKey (c : Cpu) (x : Fin 16) : (c.awaitKey x).dialect = c.dialect := by
  unfold awaitKey
  split <;> rfl

theorem dialect_execute (i : Instruction) (c : Cpu) : (c.execute i).dialect = c.dialect := by
  unfold execute
  split <;>
    simp [addIndex, storeBlock, loadBlock, storeDecimal, saveBlock, restoreBlock, drawRandom, pop,
      push]

end ChipEight.Cpu
