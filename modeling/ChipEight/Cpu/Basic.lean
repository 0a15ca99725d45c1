/-
The state of the processor.

Registers, saved registers, memory and keys have their sizes by their types.  The program
counter, the index register, the timers and the stack hold whole numbers: a debugger may put any
number there, and the instructions keep them within their ranges.

Main statements:
* `register_setRegister`: what the registers hold after one of them is set;
* `TimersNonneg.tickTimers_eq`: what a tick of the timers changes.
-/
import ChipEight.Dialect
import ChipEight.Memory.Basic
import ChipEight.Random
import ChipEight.Screen.Basic

namespace ChipEight

/-- The processor with its memory, screen, keys and timers. -/
structure Cpu where
  /-- The dialect that the processor follows. -/
  dialect : Dialect
  /-- The memory. -/
  memory : Memory
  /-- The registers `V0` to `VF`. -/
  registers : Vector UInt8 16
  /-- The index register. -/
  index : Int
  /-- The program counter. -/
  pc : Int
  /-- The delay timer. -/
  delay : Int
  /-- The sound timer. -/
  sound : Int
  /-- The return addresses, the latest first. -/
  stack : List Int
  /-- The slots for saved registers. -/
  saved : Vector UInt8 8
  /-- Which keys are held. -/
  keys : Vector Bool 16
  /-- The screen. -/
  screen : Screen
  /-- Whether the program has not stopped. -/
  running : Bool
  /-- The random numbers to come. -/
  random : Random

namespace Cpu

/-- The processor before a program is loaded. -/
def fresh (dialect : Dialect) (seed : Int) : Cpu where
  dialect := dialect
  memory := Memory.fresh
  registers := Vector.replicate 16 0
  index := 0
  pc := Memory.programStart
  delay := 0
  sound := 0
  stack := []
  saved := Vector.replicate 8 0
  keys := Vector.replicate 16 false
  screen := Screen.dark .low
  running := true
  random := Random.ofSeed seed

/-! ## Registers, keys, stack and timers -/

/-- What register `x` holds. -/
def register (c : Cpu) (x : Fin 16) : UInt8 :=
  c.registers[x]

/-- The processor with `b` in register `x`. -/
def setRegister (c : Cpu) (x : Fin 16) (b : UInt8) : Cpu :=
  { c with registers := c.registers.set x b }

/-- The flag register `VF`. -/
def flag : Fin 16 := ⟨15, by decide⟩

/-- The processor with the flag register telling whether a condition holds. -/
def setFlag (c : Cpu) (condition : Bool) : Cpu :=
  c.setRegister flag (if condition then 1 else 0)

/-- The key of a number, of which the last four bits matter. -/
def key (k : Int) : Fin 16 :=
  ⟨(k % 16).toNat, by omega⟩

/-- Whether a key is held. -/
def isHeld (c : Cpu) (k : Fin 16) : Bool :=
  c.keys[k]

/-- The processor after a key is pressed. -/
def keyDown (c : Cpu) (k : Int) : Cpu :=
  { c with keys := c.keys.set (key k) true }

/-- The processor after a key is released. -/
def keyUp (c : Cpu) (k : Int) : Cpu :=
  { c with keys := c.keys.set (key k) false }

/-- The keys that are held, in ascending order. -/
def heldKeys (c : Cpu) : List (Fin 16) :=
  (List.finRange 16).filter c.isHeld

/-- The processor after a return address is pushed. -/
def push (c : Cpu) (address : Int) : Cpu :=
  { c with stack := address :: c.stack }

/-- The latest return address, zero if there is none, and the processor after it is popped. -/
def pop (c : Cpu) : Int × Cpu :=
  (c.stack.head?.getD 0, { c with stack := c.stack.tail })

/-- A timer one tick later. -/
def timerAfterTick (t : Int) : Int :=
  if 0 < t then t - 1 else t

/-- The processor after both timers tick. -/
def tickTimers (c : Cpu) : Cpu :=
  { c with delay := timerAfterTick c.delay, sound := timerAfterTick c.sound }

@[simp] theorem register_setRegister (c : Cpu) (x z : Fin 16) (b : UInt8) :
    (c.setRegister x b).register z = if x = z then b else c.register z := by
  simp only [register, setRegister, Fin.getElem_fin, Vector.getElem_set, Fin.ext_iff]

theorem timerAfterTick_eq_max {t : Int} (h : 0 ≤ t) : timerAfterTick t = max (t - 1) 0 := by
  rw [timerAfterTick]
  split <;> omega

/-- Neither timer is below zero, as holds at first and after everything that a machine does. -/
structure TimersNonneg (c : Cpu) : Prop where
  delay : 0 ≤ c.delay
  sound : 0 ≤ c.sound

/-- A tick takes one from each timer that is not at zero, and changes nothing else. -/
theorem TimersNonneg.tickTimers_eq {c : Cpu} (h : c.TimersNonneg) :
    c.tickTimers = { c with delay := max (c.delay - 1) 0, sound := max (c.sound - 1) 0 } := by
  rw [tickTimers, timerAfterTick_eq_max h.delay, timerAfterTick_eq_max h.sound]

/-! ## Addresses -/

/-- The address of sixteen bits that a number stands for. -/
def address16 (a : Int) : Int :=
  a % 65536

/-- The processor with the program counter moved on by one instruction. -/
def advance (c : Cpu) : Cpu :=
  { c with pc := address16 (c.pc + 2) }

/-- The processor with one instruction skipped if a condition holds. -/
def skipIf (c : Cpu) (condition : Bool) : Cpu :=
  if condition then c.advance else c

/-- The word at the program counter. -/
def word (c : Cpu) : Nat :=
  c.memory.read16 c.pc

end Cpu

end ChipEight
