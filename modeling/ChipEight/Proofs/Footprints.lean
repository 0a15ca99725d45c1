/-
Footprints: which parts of the processor an instruction may change.

Every part but the program counter has instructions of its own, and no other instruction changes it.
For the registers, the cells of the memory and the slots this is told of each by itself: a block
that is stored takes the cells from the index register on, round the end of the memory, and no
other cell.

Main definitions:
* `Cpu.Part`: the parts of the processor;
* `Cpu.Writes`: the instruction may change the part.

Main statements:
* `Cpu.kept_execute`: an instruction keeps the parts that it may not change;
* `Cpu.exists_writes_of_iterate`: what a run changes, one of its instructions may change;
* `Cpu.changed_by_own_instructions`: both of these.
-/
import ChipEight.Proofs.Executions
import ChipEight.Proofs.Programs
import ChipEight.Proofs.Ranges

namespace ChipEight

/-- Every cell has an address. -/
theorem Memory.exists_cell_eq (a : Fin 4096) : ∃ b : Int, cell b = a := by
  refine ⟨a.val, Fin.ext ?_⟩
  show ((a.val : Int) % 4096).toNat = a.val
  omega

namespace Cpu

/-! ## Parts -/

/-- A part of the processor. -/
inductive Part
  /-- A cell of the memory. -/
  | cell (a : Fin 4096)
  /-- The pixels of the screen. -/
  | pixels
  /-- The resolution of the screen, with its width and its height. -/
  | resolution
  /-- The return addresses. -/
  | stack
  /-- A slot for a saved register. -/
  | slot (k : Fin 8)
  /-- The delay timer. -/
  | delay
  /-- The sound timer. -/
  | sound
  /-- The index register. -/
  | index
  /-- The random numbers to come. -/
  | random
  /-- Whether the program has not stopped. -/
  | running
  /-- Whether a key is held. -/
  | key (k : Fin 16)
  /-- A register. -/
  | register (x : Fin 16)
  deriving DecidableEq, Repr

/-- The part is the same in both processors. -/
def Part.Kept (c c' : Cpu) : Part → Prop
  | cell a => c'.memory.cells.get a = c.memory.cells.get a
  | pixels => c'.screen.pixels = c.screen.pixels
  | resolution => c'.screen.resolution = c.screen.resolution
  | stack => c'.stack = c.stack
  | slot k => c'.saved.get k = c.saved.get k
  | delay => c'.delay = c.delay
  | sound => c'.sound = c.sound
  | index => c'.index = c.index
  | random => c'.random = c.random
  | running => c'.running = c.running
  | key k => c'.isHeld k = c.isHeld k
  | register x => c'.register x = c.register x

namespace Part.Kept

variable {c c' c'' : Cpu}

theorem refl (c : Cpu) (p : Part) : p.Kept c c := by
  cases p <;> rfl

theorem trans {p : Part} (h : p.Kept c c') (h' : p.Kept c' c'') : p.Kept c c'' := by
  cases p <;> exact Eq.trans h' h

/-- To move the program counter keeps every part. -/
theorem withPc (c : Cpu) (a : Int) (p : Part) : p.Kept c { c with pc := a } := by
  cases p <;> rfl

end Part.Kept

/-! ## What instructions may change -/

/-- The opcodes whose result goes into the register `x`. -/
def resultOpcodes : List Opcode :=
  [.ldByte, .addByte, .ldReg, .or, .and, .xor, .addReg, .sub, .shr, .subn, .shl, .rnd,
    .ldFromDelay, .ldKey]

/-- The opcodes that set the flag register under every dialect. -/
def flagOpcodes : List Opcode :=
  [.addReg, .sub, .subn, .shr, .shl, .addIndex, .drw]

/-- The processor may change the part when it executes the instruction. -/
def Writes (c : Cpu) (i : Instruction) : Part → Prop
  | .cell a =>
    i.opcode = .ldDecimal ∧ (∃ k : Nat, k < 3 ∧ Memory.cell (c.index + k) = a) ∨
      i.opcode = .store ∧ ∃ k : Nat, k ≤ i.x.val ∧ Memory.cell (c.index + k) = a
  | .pixels => i.opcode ∈ [.cls, .low, .high, .scd, .scr, .scl, .drw]
  | .resolution => i.opcode ∈ [.low, .high]
  | .stack => i.opcode ∈ [.call, .ret]
  | .slot k => i.opcode = .save ∧ k.val ≤ min i.x.val 7
  | .delay => i.opcode = .ldDelay
  | .sound => i.opcode = .ldSound
  | .index =>
    i.opcode ∈ [.ldIndex, .ldFont, .ldLargeFont, .addIndex] ∨
      c.dialect.indexAdvance = true ∧ i.opcode ∈ [.store, .fetch]
  | .random => i.opcode = .rnd
  | .running => i.opcode ∈ [.exit, .jp]
  | .key _ => False
  | .register r =>
    i.opcode ∈ resultOpcodes ∧ r = i.x ∨
      i.opcode = .fetch ∧ r.val ≤ i.x.val ∨
      i.opcode = .restore ∧ r.val ≤ min i.x.val 7 ∨
      r = flag ∧ (i.opcode ∈ flagOpcodes ∨
        c.dialect.flagReset = true ∧ i.opcode ∈ [.or, .and, .xor])

variable {c c' : Cpu} {i : Instruction} {p : Part} {r x : Fin 16}

/-! ## Registers -/

/-- Registers outside a block are not changed when the block is loaded. -/
theorem register_setBlock_of_le {k : Nat} {s : List UInt8} (h : r.val < k ∨ k + s.length ≤ r.val) :
    (c.setBlock k s).register r = c.register r := by
  induction s generalizing c k with
  | nil => rfl
  | cons b s ih =>
    rw [List.length_cons] at h
    rw [setBlock, ih (by omega)]
    split
    · have hne : (⟨k, ‹_›⟩ : Fin 16) ≠ r := by
        rintro rfl
        dsimp only at h
        omega
      rw [register_setRegister, if_neg hne]
    · rfl

theorem register_setRegister_of_ne (h : r ≠ x) (b : UInt8) :
    (c.setRegister x b).register r = c.register r := by
  rw [register_setRegister, if_neg (Ne.symm h)]

theorem register_setBitwise_of_ne (hx : r ≠ x) (hf : c.dialect.flagReset = true → r ≠ flag)
    (b : UInt8) : (c.setBitwise x b).register r = c.register r := by
  rw [setBitwise]
  split
  · rw [register_setRegister_of_ne (hf ‹_›), register_setRegister_of_ne hx]
  · exact register_setRegister_of_ne hx b

/-! ## What is kept -/

/-- Where only registers and the program counter change, all else is kept. -/
theorem kept_of_registers (h : ∃ registers pc, c' = { c with registers, pc })
    (hp : ∀ r, p = .register r → c'.register r = c.register r) : p.Kept c c' := by
  obtain ⟨registers, pc, rfl⟩ := h
  cases p with
  | register r => exact hp r rfl
  | _ => rfl

theorem kept_skipIf (c : Cpu) (condition : Bool) (p : Part) : p.Kept c (c.skipIf condition) := by
  cases condition with
  | true => exact .withPc c _ p
  | false => exact .refl c p

theorem kept_setRegister (h : ∀ r, p = .register r → r ≠ x) (b : UInt8) :
    p.Kept c (c.setRegister x b) :=
  kept_of_registers ⟨_, _, rfl⟩ fun r hr => register_setRegister_of_ne (h r hr) b

theorem kept_setResult (hx : ∀ r, p = .register r → r ≠ x) (hf : ∀ r, p = .register r → r ≠ flag)
    (b : UInt8) (condition : Bool) : p.Kept c (c.setResult x b condition) :=
  (kept_setRegister hx b).trans (kept_setRegister hf _)

theorem kept_setBitwise (hx : ∀ r, p = .register r → r ≠ x)
    (hf : ∀ r, p = .register r → c.dialect.flagReset = true → r ≠ flag) (b : UInt8) :
    p.Kept c (c.setBitwise x b) := by
  obtain ⟨registers, hc⟩ := exists_setBitwise_eq c x b
  exact kept_of_registers ⟨registers, c.pc, hc⟩ fun r hr =>
    register_setBitwise_of_ne (hx r hr) (hf r hr) b

theorem kept_setBlock {s : List UInt8} (h : ∀ r, p = .register r → s.length ≤ r.val) :
    p.Kept c (c.setBlock 0 s) := by
  obtain ⟨registers, hc⟩ := exists_setBlock_eq c 0 s
  refine kept_of_registers ⟨registers, c.pc, hc⟩ fun r hr => register_setBlock_of_le (.inr ?_)
  rw [Nat.zero_add]
  exact h r hr

theorem kept_awaitKey (h : ∀ r, p = .register r → r ≠ x) : p.Kept c (c.awaitKey x) := by
  rw [awaitKey]
  split
  · exact kept_setRegister h _
  · exact .withPc c _ p

theorem kept_passBlock (h : p = .index → c.dialect.indexAdvance = false) (last : Int) :
    p.Kept c (c.passBlock last) := by
  rw [passBlock]
  split
  · rename_i hadvance
    cases p with
    | index => rw [h rfl] at hadvance; cases hadvance
    | _ => rfl
  · exact .refl c p

theorem kept_drawSprite (hs : p ≠ .pixels) (hf : ∀ r, p = .register r → r ≠ flag) (vx vy : Fin 16)
    (height : Int) : p.Kept c (c.drawSprite vx vy height) := by
  obtain ⟨screen, b, hresolution, hc⟩ := exists_drawSprite_eq c vx vy height
  have hscreen : p.Kept c { c with screen } := by
    cases p with
    | pixels => exact absurd rfl hs
    | resolution => exact hresolution
    | _ => rfl
  rw [hc]
  exact hscreen.trans (kept_setRegister hf b)

theorem kept_drawRandom (hr : p ≠ .random) (hx : ∀ r, p = .register r → r ≠ x) (most : Int) :
    p.Kept c (c.drawRandom x most) := by
  rw [drawRandom]
  -- The number is hidden, so that nothing tries to draw it.
  generalize c.random.below (most + 1).toNat = drawn
  have hrandom : p.Kept c { c with random := drawn.2 } := by
    cases p with
    | random => exact absurd rfl hr
    | _ => rfl
  exact hrandom.trans (kept_setRegister hx _)

/-- To write a block keeps the cells that are not in it. -/
theorem kept_writeBlock {s : List UInt8}
    (h : ∀ a, p = .cell a → ∀ k : Nat, k < s.length → Memory.cell (c.index + k) ≠ a) :
    p.Kept c { c with memory := c.memory.writeBlock c.index s } := by
  cases p with
  | cell a =>
    obtain ⟨b, rfl⟩ := Memory.exists_cell_eq a
    exact Memory.read_writeBlock_of_ne (h _ rfl)
  | _ => rfl

/-- An instruction keeps the parts that it may not change. -/
theorem kept_execute (hi : i.Admitted) (h : ¬c.Writes i p) : p.Kept c (c.execute i) := by
  have hx : i.operand .x = (i.x.val : Int) := hi.x.symm
  have hlength := blockLength_val i.x
  have hresult (ho : i.opcode ∈ resultOpcodes) (r : Fin 16) (hp : p = .register r) : r ≠ i.x := by
    rintro rfl
    exact h (hp ▸ .inl ⟨ho, rfl⟩)
  have hflag (ho : i.opcode ∈ flagOpcodes) (r : Fin 16) (hp : p = .register r) : r ≠ flag := by
    rintro rfl
    exact h (hp ▸ .inr (.inr (.inr ⟨rfl, .inl ho⟩)))
  have hindex (ho : i.opcode ∈ [.store, .fetch]) (hp : p = .index) :
      c.dialect.indexAdvance = false := by
    rw [← Bool.not_eq_true]
    intro hadvance
    exact h (hp ▸ .inr ⟨hadvance, ho⟩)
  rw [execute]
  cases ho : i.opcode with
  | sys => exact .refl c p
  | cls | scd | scr | scl =>
    cases p with
    | pixels => exact absurd (by simp [Writes, ho]) h
    | _ => rfl
  | low | high =>
    cases p with
    | pixels | resolution => exact absurd (by simp [Writes, ho]) h
    | _ => rfl
  | ret | call =>
    cases p with
    | stack => exact absurd (by simp [Writes, ho]) h
    | _ => rfl
  | jp | exit =>
    cases p with
    | running => exact absurd (by simp [Writes, ho]) h
    | _ => rfl
  | jpOffset => exact .withPc c _ p
  | seByte | sneByte | seReg | sneReg | skp | sknp => exact kept_skipIf c _ p
  | ldByte | addByte | ldReg | ldFromDelay =>
    exact kept_setRegister (hresult (by rw [ho]; decide)) _
  | addReg | sub | subn | shr | shl =>
    exact kept_setResult (hresult (by rw [ho]; decide)) (hflag (by rw [ho]; decide)) _ _
  | or | and | xor =>
    refine kept_setBitwise (hresult (by rw [ho]; decide)) (fun r hp hreset => ?_) _
    rintro rfl
    exact h (hp ▸ .inr (.inr (.inr ⟨rfl, .inr ⟨hreset, by rw [ho]; decide⟩⟩)))
  | rnd =>
    refine kept_drawRandom ?_ (hresult (by rw [ho]; decide)) _
    rintro rfl
    exact h ho
  | ldKey => exact kept_awaitKey (hresult (by rw [ho]; decide))
  | drw =>
    refine kept_drawSprite ?_ (hflag (by rw [ho]; decide)) _ _ _
    rintro rfl
    exact h (by simp [Writes, ho])
  | ldIndex | ldFont | ldLargeFont =>
    cases p with
    | index => exact absurd (by simp [Writes, ho]) h
    | _ => rfl
  | addIndex =>
    have hset := kept_setRegister (c := c) (hflag (by rw [ho]; decide))
    cases p with
    | index => exact absurd (by simp [Writes, ho]) h
    | register r => exact hset _
    | _ => rfl
  | ldDelay =>
    cases p with
    | delay => exact absurd ho h
    | _ => rfl
  | ldSound =>
    cases p with
    | sound => exact absurd ho h
    | _ => rfl
  | ldDecimal =>
    refine kept_writeBlock fun a hp k hk hcell => ?_
    exact h (hp ▸ .inl ⟨ho, k, hk, hcell⟩)
  | store =>
    have hwritten :
        p.Kept c { c with memory := c.memory.writeBlock c.index (c.block i.x.val) } := by
      refine kept_writeBlock fun a hp k hk hcell => ?_
      rw [block, List.length_take, hlength] at hk
      exact h (hp ▸ .inr ⟨ho, k, by omega, hcell⟩)
    dsimp only
    rw [hx, storeBlock]
    refine hwritten.trans (kept_passBlock (fun hp => ?_) _)
    exact hindex (by rw [ho]; decide) hp
  | fetch =>
    dsimp only
    rw [hx, loadBlock, hlength]
    refine Part.Kept.trans (kept_setBlock fun r hp => ?_) (kept_passBlock (fun hp => ?_) _)
    · rw [List.length_map, List.length_range]
      exact Nat.lt_of_not_le fun hr => h (hp ▸ .inr (.inl ⟨ho, hr⟩))
    · rw [dialect_setBlock]
      exact hindex (by rw [ho]; decide) hp
  | save =>
    cases p with
    | slot k =>
      have hk : ¬((k.val : Int) ≤ i.operand .x) := fun hle => h ⟨ho, by omega⟩
      show (Vector.ofFn _)[k] = c.saved[k]
      simp [hk]
    | _ => rfl
  | restore =>
    refine kept_setBlock fun r hp => ?_
    rw [List.length_take, hx, hlength, Vector.length_toList]
    have hr : ¬r.val ≤ min i.x.val 7 := fun hr => h (hp ▸ .inr (.inr (.inl ⟨ho, hr⟩)))
    omega

/-! ## Steps and runs -/

/-- A step keeps the parts that its instruction may not change. -/
theorem kept_perform (hi : c.fetch = .ok i) (h : ¬c.Writes i p) : p.Kept c (c.perform i) := by
  have hadvance : ¬c.advance.Writes i p := by
    cases p <;> exact h
  exact (Part.Kept.withPc c _ p).trans (kept_execute (admitted_of_fetch hi) hadvance)

/-- What a run changes, one of its instructions may change. -/
theorem exists_writes_of_iterate {n : Nat} {t : Cpu} (hn : c.iterate n = .ok t)
    (h : ¬p.Kept c t) :
    ∃ k < n, ∃ s i, c.iterate k = .ok s ∧ s.fetch = .ok i ∧ s.Writes i p := by
  induction n generalizing t with
  | zero =>
    cases hn
    exact absurd (.refl c p) h
  | succ n ih =>
    obtain ⟨s, i, hs, hi, rfl⟩ := exists_of_iterate_succ hn
    by_cases hkept : p.Kept c s
    · refine ⟨n, Nat.lt_succ_self n, s, i, hs, hi, ?_⟩
      exact Classical.byContradiction fun hw => h (hkept.trans (kept_perform hi hw))
    · obtain ⟨k, hk, hrest⟩ := ih hs hkept
      exact ⟨k, by omega, hrest⟩

/-- Every part of the processor is changed by its own instructions only: what a step changes, the
instruction that was fetched may change, and what a run changes, one of its instructions may change
at the step that executes it. -/
theorem changed_by_own_instructions (c : Cpu) :
    (∀ cost c', c.step = .ok (cost, c') →
      ∃ i, c.fetch = .ok i ∧ ∀ p : Part, ¬p.Kept c c' → c.Writes i p) ∧
    ∀ n t, c.iterate n = .ok t → ∀ p : Part, ¬p.Kept c t →
      ∃ k < n, ∃ s i, c.iterate k = .ok s ∧ s.fetch = .ok i ∧ s.Writes i p := by
  constructor
  · intro cost c' hstep
    obtain ⟨i, hi, rfl⟩ := exists_of_step_eq_ok hstep
    exact ⟨i, hi, fun p hp => Classical.byContradiction fun hw => hp (kept_perform hi hw)⟩
  · intro n t hn p hp
    exact exists_writes_of_iterate hn hp

/-- A program that points to a cell, sets a register and stores its decimal digits: the cell is
changed by the third of its instructions. -/
theorem changed_by_own_instructions_of_digits :
    let start := { Machine.fresh .chip8 0 0 with program := [0xA3, 0x00, 0x60, 0xFF, 0xF0, 0x33] }
    let c := (start.reset none).cpu
    let t := ((c.perform ⟨.ldIndex, [0x300]⟩).perform ⟨.ldByte, [0, 255]⟩).perform ⟨.ldDecimal, [0]⟩
    let p := Part.cell (Memory.cell 0x300)
    c.iterate 3 = .ok t ∧ ¬p.Kept c t ∧
      ∃ k < 3, ∃ s i, c.iterate k = .ok s ∧ s.fetch = .ok i ∧ s.Writes i p := by
  intro start c t p
  have hpoint : c.fetch = .ok ⟨.ldIndex, [0x300]⟩ :=
    Machine.fetch_of_program (k := 0) [0xA3, 0x00, 0x60, 0xFF, 0xF0, 0x33] rfl rfl (by decide) rfl
      (by decide) rfl
  have hset : (c.perform ⟨.ldIndex, [0x300]⟩).fetch = .ok ⟨.ldByte, [0, 255]⟩ :=
    Machine.fetch_of_program (k := 2) [0xA3, 0x00, 0x60, 0xFF, 0xF0, 0x33] rfl rfl (by decide) rfl
      (by decide) rfl
  have hstore : ((c.perform ⟨.ldIndex, [0x300]⟩).perform ⟨.ldByte, [0, 255]⟩).fetch =
      .ok ⟨.ldDecimal, [0]⟩ :=
    Machine.fetch_of_program (k := 4) [0xA3, 0x00, 0x60, 0xFF, 0xF0, 0x33] rfl rfl (by decide) rfl
      (by decide) rfl
  have hone : c.iterate 1 = .ok (c.perform ⟨.ldIndex, [0x300]⟩) :=
    iterate_succ_of_fetch (n := 0) rfl hpoint
  have hrun : c.iterate 3 = .ok t :=
    iterate_succ_of_fetch (iterate_succ_of_fetch hone hset) hstore
  have hbefore : c.memory.read 0x300 = 0 :=
    Machine.read_reset (k := 0x100) (by decide) (by decide)
  have hdigits (s : Cpu) : (s.perform ⟨.ldDecimal, [0]⟩).memory = s.memory.writeBlock s.index
      [s.register 0 / 100 % 10, s.register 0 / 10 % 10, s.register 0 % 10] := rfl
  have hpointed (s : Cpu) :
      ((s.perform ⟨.ldIndex, [0x300]⟩).perform ⟨.ldByte, [0, 255]⟩).index = 0x300 := rfl
  have hloaded (s : Cpu) : (s.perform ⟨.ldByte, [0, 255]⟩).register 0 = 255 :=
    (register_setRegister s.advance 0 0 255).trans (if_pos rfl)
  have hafter : t.memory.read (0x300 + (0 : Nat)) = 2 := by
    rw [hdigits, hpointed, hloaded, Memory.read_writeBlock (by decide) _ (by decide)]
    rfl
  have hchanged : ¬p.Kept c t := by
    intro hkept
    have hread : t.memory.read (0x300 + (0 : Nat)) = c.memory.read 0x300 := hkept
    rw [hbefore, hafter] at hread
    cases hread
  exact ⟨hrun, hchanged, (changed_by_own_instructions c).2 3 t hrun p hchanged⟩

end Cpu

end ChipEight
