/-
The index register and its twelve bits.

The instructions that point the index register somewhere give it an address of twelve bits, and an
addition to it is reduced to twelve bits.  To store or to load a block is different: the register
is moved behind the block, and where the block reaches the end of the memory it is left beyond
twelve bits.  An addition that follows then takes the excess for a carry.

Main definitions:
* `Cpu.HasTwelveBitIndex`: the index register has no more than twelve bits;
* `Cpu.Oversteps`: the instruction moves the index register past the end of the memory.

Main statements:
* `Cpu.hasTwelveBitIndex_perform_iff`: what one instruction does to the twelve bits;
* `Machine.exists_oversteps`: what a run does to them;
* `Cpu.addIndex_carry`: an addition to twelve bits;
* `Machine.twelve_bit_index`: all of these, for the machine that is played.
-/
import ChipEight.Proofs.Blocks
import ChipEight.Proofs.Plays

namespace ChipEight

namespace Cpu

variable {c : Cpu} {i : Instruction}

/-- The index register has no more than twelve bits. -/
def HasTwelveBitIndex (c : Cpu) : Prop :=
  0 ≤ c.index ∧ c.index ≤ 0xFFF

/-- The instruction moves the index register behind a block that reaches the end of the memory. -/
def Oversteps (c : Cpu) (i : Instruction) : Prop :=
  c.dialect.indexAdvance = true ∧ i.opcode ∈ [.store, .fetch] ∧ 0xFFF < c.index + i.x.val + 1

instance (c : Cpu) : Decidable c.HasTwelveBitIndex :=
  inferInstanceAs (Decidable (_ ∧ _))

instance (c : Cpu) (i : Instruction) : Decidable (c.Oversteps i) :=
  inferInstanceAs (Decidable (_ ∧ _ ∧ _))

/-! ## One instruction -/

/-- To point the index register somewhere, or to add to it, leaves twelve bits. -/
theorem hasTwelveBitIndex_of_pointing (hi : i.Admitted)
    (ho : i.opcode ∈ [.ldIndex, .ldFont, .ldLargeFont, .addIndex]) :
    (c.perform i).HasTwelveBitIndex := by
  have hx := (c.advance.register i.x).toNat_lt
  have hnnn := hi.nnn
  simp only [List.mem_cons, List.not_mem_nil, or_false] at ho
  rw [HasTwelveBitIndex, perform, execute]
  rcases ho with ho | ho | ho | ho <;> rw [ho]
  · exact hnnn
  · dsimp only [Font.smallBase, Font.smallRows]
    omega
  · dsimp only [Font.largeBase, Font.largeRows]
    omega
  · dsimp only [addIndex]
    omega

theorem perform_of_store (hi : i.Admitted) (ho : i.opcode = .store) :
    c.perform i = c.advance.storeBlock i.x.val := by
  rw [perform, execute, ho, hi.x]

theorem perform_of_fetch (hi : i.Admitted) (ho : i.opcode = .fetch) :
    c.perform i = c.advance.loadBlock i.x.val := by
  rw [perform, execute, ho, hi.x]

/-- The index register after a block is stored or loaded. -/
theorem index_perform_of_block (hi : i.Admitted) (ho : i.opcode ∈ [.store, .fetch]) :
    (c.perform i).index = c.indexBehind i.x := by
  simp only [List.mem_cons, List.not_mem_nil, or_false] at ho
  rcases ho with ho | ho
  · rw [perform_of_store hi ho, storeBlock_eq]
    rfl
  · obtain ⟨registers, hload⟩ := c.advance.loadBlock_eq i.x
    rw [perform_of_fetch hi ho, hload]
    rfl

/-- An instruction leaves the index register its twelve bits unless it oversteps. -/
theorem hasTwelveBitIndex_perform_iff (hi : c.fetch = .ok i) (hc : c.HasTwelveBitIndex) :
    (c.perform i).HasTwelveBitIndex ↔ ¬c.Oversteps i := by
  have hadmitted := admitted_of_fetch hi
  by_cases hw : c.Writes i .index
  · rcases hw with ho | ⟨hadvance, ho⟩
    · -- The opcodes that point somewhere are not those of blocks.
      refine iff_of_true (hasTwelveBitIndex_of_pointing hadmitted ho) fun hover => ?_
      have hne : ∀ o : Opcode, o ∈ [.ldIndex, .ldFont, .ldLargeFont, .addIndex] →
          o ∉ [.store, .fetch] := by decide
      exact hne _ ho hover.2.1
    · have hindex := index_perform_of_block (c := c) hadmitted ho
      rw [indexBehind, if_pos hadvance] at hindex
      obtain ⟨hnonneg, hle⟩ := hc
      have hx := i.x.isLt
      have hover : c.Oversteps i ↔ 0xFFF < c.index + i.x.val + 1 := by
        simp only [Oversteps, hadvance, ho, true_and]
      rw [hover, HasTwelveBitIndex, hindex]
      omega
  · have hindex : (c.perform i).index = c.index := kept_perform (p := .index) hi hw
    refine iff_of_true ?_ fun hover => hw (.inr ⟨hover.1, hover.2.1⟩)
    rwa [HasTwelveBitIndex, hindex]

/-- After an addition to the index register the flag register tells whether the sum has more than
twelve bits. -/
theorem flag_perform_addIndex (ho : i.opcode = .addIndex) :
    (c.perform i).register flag =
      if 0xFFF < c.index + ((c.register i.x).toNat : Int) then 1 else 0 := by
  rw [perform, execute, ho]
  show (c.advance.setFlag (0xFFF < c.index + ((c.register i.x).toNat : Int))).register flag = _
  rw [setFlag, register_setRegister, if_pos rfl]
  simp only [decide_eq_true_iff]

/-- Where the index register has twelve bits, an addition to it is the addition of twelve bits, and
the flag register tells its carry. -/
theorem addIndex_carry (ho : i.opcode = .addIndex) (hc : c.HasTwelveBitIndex) :
    let a := BitVec.ofInt 12 c.index
    let b := BitVec.ofNat 12 (c.register i.x).toNat
    (c.perform i).index = (a + b).toNat ∧
      (c.perform i).register flag = if a.uaddOverflow b then 1 else 0 := by
  intro a b
  obtain ⟨hnonneg, hle⟩ := hc
  have hx := (c.register i.x).toNat_lt
  have ha : (a.toNat : Int) = c.index := by
    rw [BitVec.toNat_ofInt]
    omega
  have hb : b.toNat = (c.register i.x).toNat := by
    rw [BitVec.toNat_ofNat]
    omega
  have hindex : (c.perform i).index = (c.index + (c.register i.x).toNat) % 4096 := by
    rw [perform, execute, ho]
    rfl
  have hcarry : a.uaddOverflow b = true ↔ 0xFFF < c.index + ((c.register i.x).toNat : Int) := by
    rw [BitVec.uaddOverflow, decide_eq_true_iff, hb]
    omega
  constructor
  · rw [hindex, BitVec.toNat_add, hb]
    omega
  · simp only [flag_perform_addIndex ho, hcarry]

end Cpu

namespace Machine

variable {s : Machine} {trace : Bool} {history : List Operation}

/-! ## Runs -/

theorem steady_hasTwelveBitIndex (d : Dialect) :
    Cpu.Steady fun c => c.dialect = d ∧ c.HasTwelveBitIndex where
  tickTimers h := h
  keyDown _ h := h
  keyUp _ h := h

/-- If the index register has lost its twelve bits, an instruction that was executed has
overstepped. -/
theorem exists_oversteps (hplay : ∀ o ∈ history, o.isPlay = true) (hs : s.cpu.HasTwelveBitIndex)
    (h : ¬(s.after trace history).cpu.HasTwelveBitIndex) :
    ∃ c i, s.Executes history c i ∧ c.dialect = s.cpu.dialect ∧ c.HasTwelveBitIndex ∧
      c.Oversteps i := by
  refine Classical.byContradiction fun hnone => h ?_
  refine ((steady_hasTwelveBitIndex s.cpu.dialect).after hplay ⟨rfl, hs⟩ ?_ trace).2
  rintro c i hi ⟨hdialect, hc⟩
  refine ⟨(Cpu.dialect_execute i c.advance).trans hdialect, ?_⟩
  rw [Cpu.hasTwelveBitIndex_perform_iff hi.fetch_eq hc]
  exact fun hover => hnone ⟨c, i, hi, hdialect, hc, hover⟩

/-- The index register of a machine that is played has twelve bits until an instruction oversteps,
and if the dialect does not move it behind blocks it always has.  An instruction that is executed
on twelve bits leaves twelve bits unless it oversteps; if it adds to them it adds as numbers of
twelve bits are added, and the flag register tells the carry. -/
theorem twelve_bit_index (s : Machine) (trace : Bool) (history : List Operation)
    (hs : s.Unplayed) (hplay : ∀ o ∈ history, o.isPlay = true) :
    (¬(s.after trace history).cpu.HasTwelveBitIndex →
      ∃ c i, s.Executes history c i ∧ c.HasTwelveBitIndex ∧ c.Oversteps i) ∧
    (s.cpu.dialect.indexAdvance = false → (s.after trace history).cpu.HasTwelveBitIndex) ∧
    ∀ c i, s.Executes history c i → c.HasTwelveBitIndex →
      ((c.perform i).HasTwelveBitIndex ↔ ¬c.Oversteps i) ∧
      (i.opcode = .addIndex →
        let a := BitVec.ofInt 12 c.index
        let b := BitVec.ofNat 12 (c.register i.x).toNat
        (c.perform i).index = (a + b).toNat ∧
          (c.perform i).register Cpu.flag = if a.uaddOverflow b then 1 else 0) := by
  have hstart : s.cpu.HasTwelveBitIndex := by
    rw [Cpu.HasTwelveBitIndex, hs.index_eq]
    decide
  refine ⟨fun h => ?_, fun hadvance => ?_, fun c i hi hc =>
    ⟨Cpu.hasTwelveBitIndex_perform_iff hi.fetch_eq hc, fun ho => Cpu.addIndex_carry ho hc⟩⟩
  · obtain ⟨c, i, hi, -, hc, hover⟩ := exists_oversteps hplay hstart h
    exact ⟨c, i, hi, hc, hover⟩
  · refine Classical.byContradiction fun h => ?_
    obtain ⟨c, i, -, hdialect, -, hover⟩ := exists_oversteps hplay hstart h
    rw [Cpu.Oversteps, hdialect, hadvance] at hover
    exact Bool.false_ne_true hover.1

/-- On the machine that does not move the index register behind blocks, a block of one byte is
loaded from the end of the memory, and the index register keeps its twelve bits. -/
theorem twelve_bit_index_of_superchip :
    let s := { fresh .superchip defaultClock 1 with program := [0xAF, 0xFF, 0xF0, 0x65] }.reset none
    let history : List Operation := [.step, .step]
    s.Unplayed ∧ (∀ o ∈ history, o.isPlay = true) ∧
      (s.after false history).cpu.HasTwelveBitIndex := by
  intro s history
  have hs : s.Unplayed := .reset _ none
  have hplay : ∀ o ∈ history, o.isPlay = true := by decide
  exact ⟨hs, hplay, (twelve_bit_index s false history hs hplay).2.1 rfl⟩

/-- A block of one byte is loaded from the end of the memory, and the index register moves to an
address of thirteen bits.  When zero is added to it, the flag register tells a carry. -/
theorem twelve_bit_index_lost :
    let s := { fresh .chip8 defaultClock 1 with
      program := [0xAF, 0xFF, 0xF0, 0x65, 0xF1, 0x1E] }.reset none
    let t := s.after false [.step, .step]
    s.Unplayed ∧ t.cpu.index = 0x1000 ∧ ¬t.cpu.HasTwelveBitIndex ∧ t.cpu.register 1 = 0 ∧
      (t.after false [.step]).cpu.register Cpu.flag = 1 := by
  intro s t
  let point : Instruction := ⟨.ldIndex, [0xFFF]⟩
  let fetch : Instruction := ⟨.fetch, [0]⟩
  let add : Instruction := ⟨.addIndex, [1]⟩
  let c₁ := s.cpu.perform point
  have hfetch {k : Nat} {c : Cpu} {i : Instruction} (hm : c.memory = s.cpu.memory) :=
    fetch_of_program (k := k) (i := i) [0xAF, 0xFF, 0xF0, 0x65, 0xF1, 0x1E] hm rfl (by decide)
  have hpoint : s.cpu.fetch = .ok point := hfetch (k := 0) rfl rfl (by decide) rfl
  have hload : c₁.fetch = .ok fetch := hfetch (k := 2) rfl rfl (by decide) rfl
  have hperform : c₁.perform fetch = _ := Cpu.perform_of_fetch (Cpu.admitted_of_fetch hload) rfl
  have hzero : (c₁.perform fetch).register 1 = 0 := by
    rw [hperform, Cpu.register_loadBlock_of_lt (by decide)]
    rfl
  obtain ⟨registers, hloaded⟩ := c₁.advance.loadBlock_eq fetch.x
  rw [← hperform] at hloaded
  let s₁ := { s with cpu := c₁, stepCycles := 8 }
  let s₂ := { s with cpu := c₁.perform fetch, stepCycles := 16 }
  have hfirst : (s.stepInstruction false).machine = s₁ := by
    rw [stepInstruction_of_fetch hpoint]
    rfl
  have hsecond : (s₁.stepInstruction false).machine = s₂ := by
    have hstep : s₁.stepInstruction false = _ := stepInstruction_of_fetch hload
    rw [hstep]
    rfl
  have ht : t = s₂ := (congrArg (apply false · .step) hfirst).trans hsecond
  have hindex : t.cpu.index = 0x1000 := by
    rw [ht]
    show (c₁.perform fetch).index = _
    rw [hloaded]
    rfl
  have hcell : t.cpu.register 1 = 0 := by
    rw [ht]
    exact hzero
  have hadd : t.cpu.fetch = .ok add := by
    rw [ht]
    refine hfetch (k := 4) ?_ ?_ (by decide) rfl
    · show (c₁.perform fetch).memory = _
      rw [hloaded]
      rfl
    · show (c₁.perform fetch).pc = _
      rw [hloaded]
      rfl
  have hstep : t.stepInstruction false = _ := stepInstruction_of_fetch hadd
  have hflag : (t.cpu.perform add).register Cpu.flag = 1 := by
    rw [Cpu.flag_perform_addIndex rfl, hindex]
    exact if_pos (by omega)
  refine ⟨.reset _ none, hindex, fun h => ?_, hcell, ?_⟩
  · rw [Cpu.HasTwelveBitIndex, hindex] at h
    exact absurd h.2 (by decide)
  · show (t.stepInstruction false).machine.cpu.register _ = _
    rw [hstep]
    rcases cpu_countCycles { t with cpu := t.cpu.perform add } ((t.cpu.cost add).cycles t.budget)
      with hcpu | hcpu
    · rw [hcpu]
      exact hflag
    · rw [hcpu]
      exact hflag

end Machine

end ChipEight
