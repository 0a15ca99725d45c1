/-
How many instructions a frame has.

An instruction takes eight cycles, and a frame ends when its cycles are used up; a drawing that
waits takes all the cycles of a frame, however many they are, so nothing comes after it.

Main definitions:
* `Cpu.cyclesOf`: the cycles that some instructions take.

Main statements:
* `Cpu.Runs.stepped_eq`: the cycles of a run are those of its instructions;
* `Machine.tick_run`: the run that a frame makes;
* `Machine.frame_budget`: how many instructions a frame has, and when it draws.
-/
import ChipEight.Proofs.Dialects
import ChipEight.Proofs.Faults
import Mathlib.Algebra.Order.BigOperators.Group.List
import Mathlib.Algebra.Order.Floor.Div
import Mathlib.Algebra.Order.Ring.Int

namespace ChipEight

/-! ## The cycles of a run -/

namespace Cpu

variable {budget : Int} {c t : Cpu} {i : Instruction} {is : List Instruction}

/-- The cycles that some instructions take, in a frame of `budget` cycles. -/
def cyclesOf (c : Cpu) (budget : Int) (is : List Instruction) : Int :=
  (is.map fun i => (c.cost i).cycles budget).sum

@[simp] theorem cyclesOf_nil : c.cyclesOf budget [] = 0 := rfl

@[simp] theorem cyclesOf_cons :
    c.cyclesOf budget (i :: is) = (c.cost i).cycles budget + c.cyclesOf budget is :=
  List.sum_cons

theorem cost_eq_of_dialect_eq (h : t.dialect = c.dialect) (i : Instruction) :
    t.cost i = c.cost i := by
  rw [cost, cost, h]

theorem cost_eq_instruction_iff :
    c.cost i = .instruction ↔ (c.dialect.displayWait = true → i.opcode ≠ .drw) := by
  rw [cost, ite_eq_right_iff]
  constructor
  · intro h hw ho
    cases h ⟨ho, hw⟩
  · exact fun h hi => absurd hi.1 (h hi.2)

/-- The cycles of a run are those of its instructions. -/
theorem Runs.stepped_eq (h : c.Runs is t) (budget : Int) :
    c.stepped budget is.length = .ok (t, c.cyclesOf budget is) := by
  induction h with
  | nil => rfl
  | @cons is t i hrun hi ih =>
    have hcost := cost_eq_of_dialect_eq (dialect_of_iterate hrun.iterate_eq) i
    rw [List.length_cons, stepped_succ ih (step_of_fetch hi), hcost, cyclesOf_cons, Int.add_comm]

theorem Runs.eq_of_stepped {u : Cpu} {cycles : Int} (h : c.Runs is t)
    (hu : c.stepped budget is.length = .ok (u, cycles)) :
    t = u ∧ c.cyclesOf budget is = cycles := by
  rw [h.stepped_eq, Except.ok.injEq, Prod.mk.injEq] at hu
  exact hu

theorem cost_cycles_nonneg (hb : 0 ≤ budget) (is : List Instruction) :
    ∀ n ∈ is.map fun i => (c.cost i).cycles budget, 0 ≤ n := by
  intro n hn
  obtain ⟨i, -, rfl⟩ := List.mem_map.1 hn
  exact (c.cost i).cycles_nonneg hb

/-- No instruction waits for the next frame if cycles are left after all of them. -/
theorem cost_of_cyclesOf_lt (hb : 0 ≤ budget) (h : c.cyclesOf budget is < budget)
    (hi : i ∈ is) : c.cost i = .instruction := by
  have hle := List.single_le_sum (c.cost_cycles_nonneg hb is) _ (List.mem_map_of_mem hi)
  cases hcost : c.cost i with
  | instruction => rfl
  | restOfFrame =>
    rw [hcost, Cost.cycles] at hle
    exact absurd h (Int.not_lt.2 hle)

/-- Instructions that do not wait take eight cycles each. -/
theorem cyclesOf_eq (h : ∀ i ∈ is, c.cost i = .instruction) :
    c.cyclesOf budget is = 8 * is.length := by
  have heach : ∀ n ∈ is.map fun i => (c.cost i).cycles budget, n = 8 := by
    intro n hn
    obtain ⟨i, hi, rfl⟩ := List.mem_map.1 hn
    rw [h i hi]
    rfl
  rw [cyclesOf, List.sum_eq_card_nsmul _ _ heach, List.length_map, nsmul_eq_mul, mul_comm]

/-! ## How many instructions the cycles allow -/

/-- Where cycles are left before the last instruction, there are no more instructions than the
cycles allow. -/
theorem length_le_ceilDiv (hb : 0 < budget) (h : c.cyclesOf budget is.tail < budget) :
    is.length ≤ budget.toNat ⌈/⌉ 8 := by
  rw [cyclesOf_eq fun i => cost_of_cyclesOf_lt (Int.le_of_lt hb) h, List.length_tail] at h
  rw [Nat.ceilDiv_eq_add_pred_div]
  omega

/-- Instructions that use up the cycles are as many as the cycles allow, if none of them waits. -/
theorem ceilDiv_le_length (hcost : ∀ i ∈ is, c.cost i = .instruction)
    (h : budget ≤ c.cyclesOf budget is) : budget.toNat ⌈/⌉ 8 ≤ is.length := by
  rw [cyclesOf_eq hcost] at h
  rw [ceilDiv_le_iff_le_mul (by decide)]
  omega

/-- If cycles are left before the last instruction, no other draws where drawings wait. -/
theorem not_draws_of_cyclesOf_tail_lt (hb : 0 < budget) (h : c.cyclesOf budget is.tail < budget)
    (hw : c.dialect.displayWait = true) (hi : i ∈ is.tail) : i.opcode ≠ .drw :=
  cost_eq_instruction_iff.1 (cost_of_cyclesOf_lt (Int.le_of_lt hb) h hi) hw

theorem countP_draws_le_one (h : ∀ i ∈ is.tail, i.opcode ≠ .drw) :
    is.countP (·.opcode = .drw) ≤ 1 := by
  cases is with
  | nil => exact Nat.zero_le 1
  | cons i is =>
    have hnone : is.countP (·.opcode = .drw) = 0 :=
      List.countP_eq_zero.2 fun j hj => by simpa using h j hj
    rw [List.countP_cons, hnone]
    split <;> decide

/-- If cycles are left before the last instruction, none waits unless it is the last. -/
theorem cost_of_last (hb : 0 < budget) (h : c.cyclesOf budget is.tail < budget)
    (hlast : c.dialect.displayWait = true → ∀ i ∈ is.head?, i.opcode ≠ .drw) :
    ∀ i ∈ is, c.cost i = .instruction := by
  cases is with
  | nil => exact fun i hi => absurd hi List.not_mem_nil
  | cons j is =>
    refine List.forall_mem_cons.2 ⟨?_, fun i => cost_of_cyclesOf_lt (Int.le_of_lt hb) h⟩
    exact cost_eq_instruction_iff.2 fun hw => hlast hw j rfl

theorem Runs.eq_nil_of_fetch_error {e : InvalidOpcode} (h : c.Runs is t)
    (he : c.fetch = .error e) : is = [] := by
  induction h with
  | nil => rfl
  | cons hrun hi ih =>
    rw [ih] at hrun
    cases hrun
    rw [he] at hi
    cases hi

end Cpu

namespace Machine

variable {s : Machine} {c : Cpu} {is : List Instruction}

/-! ## The run of a frame -/

/-- Before the last instruction of a frame its cycles are not used up. -/
theorem cyclesOf_tail_lt (hb : 0 < s.budget) (hrun : s.cpu.Runs is c)
    (hgo : s.GoesOnBelow is.length) : s.cpu.cyclesOf s.budget is.tail < s.budget := by
  cases hrun with
  | nil => rwa [List.tail_nil, Cpu.cyclesOf_nil]
  | @cons is t i hrun hi =>
    cases is with
    | nil => rwa [List.tail_cons, Cpu.cyclesOf_nil]
    | cons j is =>
      have hover := hgo _ _ _ (Nat.le_add_left 1 _) (Nat.lt_succ_self _) (hrun.stepped_eq s.budget)
      exact Int.not_le.1 fun hused => hover (.inr (.inr hused))

/-- The run that a frame with cycles makes: before its last instruction the cycles are not used
up, and after it they are, unless something else ends the frame. -/
theorem tick_run (hl : s.isLive = true) (hb : 0 < s.budget) :
    let is := executions (s.tick true).journal
    let o := s.tick true
    ∃ c, s.cpu.Runs is c ∧ (o.machine.cpu = c ∨ o.machine.cpu = c.tickTimers) ∧
      s.cpu.cyclesOf s.budget is.tail < s.budget ∧
      (is = [] → Instruction.NoPatternFits s.cpu.word) ∧
      (o.result = .ok () → o.machine.halted = false → o.machine.cpu.running = true →
        s.budget ≤ s.cpu.cyclesOf s.budget is) := by
  intro is o
  obtain ⟨c, hrun, -⟩ := s.runs_tick
  refine ⟨c, hrun, ?_⟩
  -- The frame has as many steps as it reports instructions, so its last processor is that of the
  -- run, and its cycles are those of the run.
  rcases tick_spec hl hb true with
    ⟨k, c', cycles, hends, hok, hbreak, hgoes, hcount⟩ | ⟨k, c', e, hfaults, herror, hm, hcount⟩
  · obtain rfl : is.length = k := hcount rfl
    obtain ⟨rfl, rfl⟩ := hrun.eq_of_stepped hends.stepped
    have hpos := hends.pos
    refine ⟨?_, cyclesOf_tail_lt hb hrun hends.goesOn, fun hnil => ?_, fun _ hhalted hr => ?_⟩
    · by_cases hpc : c.pc ∈ s.breakpoints
      · exact .inl (congrArg Machine.cpu (hbreak hpc))
      · exact .inr (congrArg Machine.cpu (hgoes hpc))
    · rw [hnil] at hpos
      exact absurd hpos (by decide)
    · have hpc : c.pc ∉ s.breakpoints := fun hpc => by
        rw [hbreak hpc] at hhalted
        cases hhalted
      rw [hgoes hpc] at hr
      exact hends.le_cycles hpc hr
  · obtain rfl : is.length = k := hcount rfl
    obtain ⟨cycles, hc⟩ := hfaults.stepped
    obtain ⟨rfl, rfl⟩ := hrun.eq_of_stepped hc
    have hgo : s.GoesOnBelow is.length := fun j u n hj hlt =>
      hfaults.goesOn j u n hj (Nat.lt_succ_of_lt hlt)
    refine ⟨.inl (congrArg Machine.cpu hm), cyclesOf_tail_lt hb hrun hgo, fun hnil => ?_,
      fun hok => ?_⟩
    · rw [show executions (s.tick true).journal = [] from hnil] at hrun
      cases hrun
      exact Instruction.decode_eq_error_iff.1 (Cpu.step_eq_error_iff.1 hfaults.fails).1
    · rw [show o.result = _ from herror] at hok
      cases hok

/-! ## How many instructions a frame has -/

/-- A frame with cycles has at most an eighth as many instructions, rounded up, and none only if it
begins at a word that is no instruction.  Where drawings wait it draws at most once, and does
nothing after that.  If no breakpoint, stop, failure or drawing that waits ends it, it has all the
instructions that its cycles allow. -/
theorem frame_budget (hl : s.isLive = true) (hb : 0 < s.budget) (trace : Bool) :
    let is := executions (s.tick true).journal
    let most := s.budget.toNat ⌈/⌉ 8
    let o := s.tick trace
    (∃ c, s.cpu.Runs is c ∧ (o.machine.cpu = c ∨ o.machine.cpu = c.tickTimers)) ∧
    is.length ≤ most ∧
    (is = [] ↔ Instruction.NoPatternFits s.cpu.word) ∧
    (s.cpu.dialect.displayWait = true →
      is.countP (·.opcode = .drw) ≤ 1 ∧ ∀ i ∈ is.tail, i.opcode ≠ .drw) ∧
    (o.result = .ok () → o.machine.halted = false → o.machine.cpu.running = true →
      (s.cpu.dialect.displayWait = true → ∀ i ∈ is.head?, i.opcode ≠ .drw) →
      is.length = most) := by
  intro is most o
  obtain ⟨hm, hr⟩ := s.tick_trace trace
  obtain ⟨c, hrun, hcpu, htail, hnil, hused⟩ := tick_run hl hb
  have hdraw (hw : s.cpu.dialect.displayWait = true) : ∀ i ∈ is.tail, i.opcode ≠ .drw :=
    fun i => Cpu.not_draws_of_cyclesOf_tail_lt hb htail hw
  have hmost : is.length ≤ most := Cpu.length_le_ceilDiv hb htail
  have hempty (hfits : Instruction.NoPatternFits s.cpu.word) : is = [] :=
    hrun.eq_nil_of_fetch_error (Cpu.fetch_eq_error_iff.2 ⟨hfits, rfl⟩)
  refine ⟨⟨c, hrun, hm ▸ hcpu⟩, hmost, ⟨hnil, hempty⟩,
    fun hw => ⟨Cpu.countP_draws_le_one (hdraw hw), hdraw hw⟩, fun hok hhalted hlive hlast => ?_⟩
  have hcost := Cpu.cost_of_last hb htail hlast
  rw [show o.result = _ from hr] at hok
  rw [show o.machine = _ from hm] at hhalted hlive
  exact Nat.le_antisymm hmost (Cpu.ceilDiv_le_length hcost (hused hok hhalted hlive))

/-! ## A program that draws in its first frame -/

/-- A program that sets a register, draws, and then counts in a loop. -/
def drawOnce : Image :=
  [0x60, 0x05, 0xD0, 0x11, 0x70, 0x01, 0x12, 0x04]

/-- A machine with the program, of which a frame has up to three instructions. -/
def drawingOnce : Machine :=
  { fresh .chip8 144000 0 with program := drawOnce }.reset none

/-- The drawing ends the first frame before its cycles are used up; the next frame has as many
instructions as its cycles allow. -/
theorem frame_budget_of_drawing :
    let s := drawingOnce
    let s' := (s.tick true).machine
    (s.isLive = true ∧ 0 < s.budget ∧ (executions (s.tick true).journal).length = 2 ∧
      (executions (s.tick true).journal).countP (·.opcode = .drw) ≤ 1) ∧
    s'.isLive = true ∧ 0 < s'.budget ∧
      (executions (s'.tick true).journal).length = s'.budget.toNat ⌈/⌉ 8 := by
  intro s s'
  let set : Instruction := ⟨.ldByte, [0, 5]⟩
  let draw : Instruction := ⟨.drw, [0, 1, 1]⟩
  let add : Instruction := ⟨.addByte, [0, 1]⟩
  let jump : Instruction := ⟨.jp, [0x204]⟩
  have hset : ∀ c : Cpu, c.memory = s.cpu.memory → c.pc = 0x200 → c.fetch = .ok set :=
    fun c hm hpc => fetch_of_program (k := 0) drawOnce hm rfl (by decide) hpc (by decide) rfl
  have hdraw : ∀ c : Cpu, c.memory = s.cpu.memory → c.pc = 0x202 → c.fetch = .ok draw :=
    fun c hm hpc => fetch_of_program (k := 2) drawOnce hm rfl (by decide) hpc (by decide) rfl
  have hadd : ∀ c : Cpu, c.memory = s.cpu.memory → c.pc = 0x204 → c.fetch = .ok add :=
    fun c hm hpc => fetch_of_program (k := 4) drawOnce hm rfl (by decide) hpc (by decide) rfl
  have hjump : ∀ c : Cpu, c.memory = s.cpu.memory → c.pc = 0x206 → c.fetch = .ok jump :=
    fun c hm hpc => fetch_of_program (k := 6) drawOnce hm rfl (by decide) hpc (by decide) rfl
  let c₁ := s.cpu.perform set
  let c₂ := (c₁.perform draw).tickTimers
  let c₃ := c₂.perform add
  let c₄ := c₃.perform jump
  have hfirst : s.tick true = _ := tick_of_complete rfl <| by
    rw [runCycles_of_fetch (by decide) rfl (hset s.cpu rfl rfl) (by decide)]
    rw [runCycles_of_fetch (by decide) rfl (hdraw c₁ rfl rfl) (by decide)]
    exact runCycles_zero
  have hnext : s' = { s with cpu := c₂ } := congrArg Outcome.machine hfirst
  have hsecond : ({ s with cpu := c₂ } : Machine).tick true = _ := tick_of_complete rfl <| by
    rw [runCycles_of_fetch (by decide) rfl (hadd c₂ rfl rfl) (by decide)]
    rw [runCycles_of_fetch (by decide) rfl (hjump c₃ rfl rfl) (by decide)]
    rw [runCycles_of_fetch (by decide) rfl (hadd c₄ rfl rfl) (by decide)]
    exact runCycles_zero
  have hlive : s'.isLive = true := by rw [hnext]; rfl
  have hbudget : 0 < s'.budget := by rw [hnext]; decide
  obtain ⟨-, -, -, honce, -⟩ := frame_budget (s := s) rfl (by decide) true
  obtain ⟨-, -, -, -, hexact⟩ := frame_budget hlive hbudget true
  rw [hnext, hsecond] at hexact
  refine ⟨⟨rfl, by decide, ?_, (honce rfl).1⟩, hlive, hbudget, ?_⟩
  · rw [hfirst]
    rfl
  · rw [hnext, hsecond]
    refine hexact rfl rfl rfl fun _ i hi => ?_
    cases hi
    decide

end Machine

end ChipEight
