/-
On what an instruction depends: which opcodes look at the dialect, and which look at the timers.

An instruction is executed on a processor that is set to another dialect and has other timers.  It
does the same there, as long as the dialects have the same flags of those that concern its opcode,
and the delay timer is the same if it is the one instruction that reads it.

Main definitions:
* `Dialect.Flag.concerns`: the opcodes that a flag concerns;
* `Cpu.retuned`: the processor with another dialect and other timers.

Main statements:
* `Cpu.execute_retuned`: an instruction does the same on a processor that is retuned;
* `Cpu.delay_execute`, `Cpu.sound_execute`: only two instructions set the timers.
-/
import ChipEight.Cpu.Step

namespace ChipEight

/-! ## Flags and the opcodes that they concern -/

namespace Dialect

/-- The flags of a dialect. -/
inductive Flag
  | flagReset
  | indexAdvance
  | displayWait
  | spriteWrap
  | highResFlag
  | shiftInPlace
  | jumpByDigit
  deriving DecidableEq, Repr

/-- All flags. -/
def Flag.all : List Flag :=
  [.flagReset, .indexAdvance, .displayWait, .spriteWrap, .highResFlag, .shiftInPlace, .jumpByDigit]

theorem Flag.mem_all (f : Flag) : f ∈ Flag.all := by
  cases f <;> decide

/-- Whether the flag is set. -/
def isSet (d : Dialect) : Flag → Bool
  | .flagReset => d.flagReset
  | .indexAdvance => d.indexAdvance
  | .displayWait => d.displayWait
  | .spriteWrap => d.spriteWrap
  | .highResFlag => d.highResFlag
  | .shiftInPlace => d.shiftInPlace
  | .jumpByDigit => d.jumpByDigit

/-- The opcodes whose effect depends on the flag.  The display wait is about how long an
instruction takes, not about what it does. -/
def Flag.concerns : Flag → List Opcode
  | .flagReset => [.or, .and, .xor]
  | .indexAdvance => [.store, .fetch]
  | .spriteWrap => [.drw]
  | .shiftInPlace => [.shr, .shl]
  | .jumpByDigit => [.jpOffset]
  | .displayWait | .highResFlag => []

/-- The dialects do not differ in a flag that concerns the opcode. -/
def AgreeOn (d e : Dialect) (o : Opcode) : Prop :=
  ∀ f : Flag, o ∈ f.concerns → d.isSet f = e.isSet f

instance (d e : Dialect) (o : Opcode) : Decidable (d.AgreeOn e o) :=
  decidable_of_iff (∀ f ∈ Flag.all, o ∈ f.concerns → d.isSet f = e.isSet f)
    ⟨fun h f => h f f.mem_all, fun h f _ => h f⟩

theorem AgreeOn.refl (d : Dialect) (o : Opcode) : d.AgreeOn d o :=
  fun _ _ => rfl

end Dialect

/-! ## Other dialects and other timers -/

namespace Cpu

/-- The processor with another dialect and other timers. -/
def retuned (c : Cpu) (d : Dialect) (delay sound : Int) : Cpu :=
  { c with dialect := d, delay, sound }

section Parts

variable (c : Cpu) (d : Dialect) (t u : Int)

theorem skipIf_retuned (condition : Bool) :
    (c.retuned d t u).skipIf condition = (c.skipIf condition).retuned d t u := by
  cases condition <;> rfl

theorem setBlock_retuned (k : Nat) (s : List UInt8) :
    (c.retuned d t u).setBlock k s = (c.setBlock k s).retuned d t u := by
  induction s generalizing c k with
  | nil => rfl
  | cons b s ih =>
    rw [setBlock, setBlock]
    split
    · exact ih (c.setRegister ⟨k, ‹_›⟩ b) (k + 1)
    · exact ih c (k + 1)

theorem awaitKey_retuned (x : Fin 16) :
    (c.retuned d t u).awaitKey x = (c.awaitKey x).retuned d t u := by
  have hkeys : (c.retuned d t u).heldKeys = c.heldKeys := rfl
  rw [awaitKey, awaitKey, hkeys]
  cases c.heldKeys <;> rfl

variable {c d}

theorem setBitwise_retuned (h : d.flagReset = c.dialect.flagReset) (x : Fin 16) (b : UInt8) :
    (c.retuned d t u).setBitwise x b = (c.setBitwise x b).retuned d t u := by
  have hflag : ((c.retuned d t u).setRegister x b).dialect.flagReset =
      (c.setRegister x b).dialect.flagReset := h
  rw [setBitwise, setBitwise, hflag]
  cases (c.setRegister x b).dialect.flagReset <;> rfl

theorem shiftSource_retuned (h : d.shiftInPlace = c.dialect.shiftInPlace) (x y : Fin 16) :
    (c.retuned d t u).shiftSource x y = c.shiftSource x y :=
  congrArg (if · then x else y) h

theorem passBlock_retuned (h : d.indexAdvance = c.dialect.indexAdvance) (last : Int) :
    (c.retuned d t u).passBlock last = (c.passBlock last).retuned d t u := by
  have hflag : (c.retuned d t u).dialect.indexAdvance = c.dialect.indexAdvance := h
  rw [passBlock, passBlock, hflag]
  cases c.dialect.indexAdvance <;> rfl

theorem loadBlock_retuned (h : d.indexAdvance = c.dialect.indexAdvance) (last : Int) :
    (c.retuned d t u).loadBlock last = (c.loadBlock last).retuned d t u := by
  rw [loadBlock, loadBlock, setBlock_retuned]
  refine passBlock_retuned t u ?_ last
  rw [dialect_setBlock, h]

theorem drawSprite_retuned (h : d.spriteWrap = c.dialect.spriteWrap) (x y : Fin 16)
    (height : Int) :
    (c.retuned d t u).drawSprite x y height = (c.drawSprite x y height).retuned d t u := by
  have hflag : (c.retuned d t u).dialect.spriteWrap = c.dialect.spriteWrap := h
  have hregister : ∀ z, (c.retuned d t u).register z = c.register z := fun _ => rfl
  have hscreen : (c.retuned d t u).screen = c.screen := rfl
  have hlarge : (c.retuned d t u).largeSprite = c.largeSprite := rfl
  have hsmall : ∀ n, (c.retuned d t u).smallSprite n = c.smallSprite n := fun _ => rfl
  rw [drawSprite, drawSprite]
  simp only [hflag, hregister, hscreen, hlarge, hsmall]
  -- The drawings are hidden, so that nothing tries to carry them out.
  generalize c.screen.draw _ _ _ c.largeSprite = large
  generalize c.screen.draw _ _ _ (c.smallSprite _) = small
  split <;> rfl

end Parts

/-- An instruction does the same on a processor that is retuned, unless it depends on what is
changed; timers that it does not set keep their values. -/
theorem execute_retuned {i : Instruction} {c : Cpu} {d : Dialect}
    (hd : d.AgreeOn c.dialect i.opcode) {t : Int} (ht : i.opcode = .ldFromDelay → t = c.delay)
    (u : Int) :
    (c.retuned d t u).execute i = (c.execute i).retuned d
      (if i.opcode = .ldDelay then (c.register i.x).toNat else t)
      (if i.opcode = .ldSound then (c.register i.x).toNat else u) := by
  rw [execute, execute]
  -- The opcodes that no flag and no timer concerns are done by computation.
  cases ho : i.opcode with
  | seByte | sneByte | seReg | sneReg | skp | sknp => exact skipIf_retuned c d t u _
  | or | and | xor =>
    have hflag : d.flagReset = c.dialect.flagReset := hd .flagReset (by rw [ho]; decide)
    exact setBitwise_retuned t u hflag i.x _
  | shr | shl =>
    have hflag : d.shiftInPlace = c.dialect.shiftInPlace := hd .shiftInPlace (by rw [ho]; decide)
    dsimp only
    rw [shiftSource_retuned t u hflag]
    rfl
  | jpOffset =>
    have hflag : (c.retuned d t u).dialect.jumpByDigit = c.dialect.jumpByDigit :=
      hd .jumpByDigit (by rw [ho]; decide)
    dsimp only
    rw [hflag]
    rfl
  | drw =>
    have hflag : d.spriteWrap = c.dialect.spriteWrap := hd .spriteWrap (by rw [ho]; decide)
    exact drawSprite_retuned t u hflag i.x i.y i.n
  | store =>
    have hflag : d.indexAdvance = c.dialect.indexAdvance := hd .indexAdvance (by rw [ho]; decide)
    let stored := { c with memory := c.memory.writeBlock c.index (c.block (i.operand .x)) }
    have hstored : d.indexAdvance = stored.dialect.indexAdvance := hflag
    exact passBlock_retuned t u hstored (i.operand .x)
  | fetch =>
    have hflag : d.indexAdvance = c.dialect.indexAdvance := hd .indexAdvance (by rw [ho]; decide)
    exact loadBlock_retuned t u hflag (i.operand .x)
  | ldKey => exact awaitKey_retuned c d t u i.x
  | ldFromDelay =>
    rw [ht ho]
    rfl
  | restore => exact setBlock_retuned c d t u 0 _
  | _ => rfl

/-! ## Timers -/

theorem execute_eq_retuned (i : Instruction) (c : Cpu) :
    c.execute i = (c.execute i).retuned c.dialect
      (if i.opcode = .ldDelay then (c.register i.x).toNat else c.delay)
      (if i.opcode = .ldSound then (c.register i.x).toNat else c.sound) :=
  execute_retuned (.refl c.dialect i.opcode) (fun _ => rfl) c.sound

/-- Only one instruction sets the delay timer. -/
theorem delay_execute (i : Instruction) (c : Cpu) :
    (c.execute i).delay = if i.opcode = .ldDelay then ((c.register i.x).toNat : Int) else c.delay :=
  congrArg Cpu.delay (execute_eq_retuned i c)

/-- Only one instruction sets the sound timer. -/
theorem sound_execute (i : Instruction) (c : Cpu) :
    (c.execute i).sound = if i.opcode = .ldSound then ((c.register i.x).toNat : Int) else c.sound :=
  congrArg Cpu.sound (execute_eq_retuned i c)

end Cpu

end ChipEight
