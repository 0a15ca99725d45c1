/-
Single steps beside frames.

Single steps count their cycles on: when the count has reached the cycles of a frame the timers
tick, and what is too much is carried over.  A frame begins to count at zero and forgets what was
too much in the frame before.  So the timers may tick earlier under single steps; what is computed
is the same, unless the program reads the delay timer.

Main definitions:
* `Machine.KeepsPace`: the cycles that are carried over never let the timers tick before the last
  instruction of a frame;
* `Machine.FullFrames`: a number of frames that use up their cycles.

Main statements:
* `Machine.steps_of_endsAt`: the single steps of one frame;
* `Machine.steps_eq_frames`: as many single steps as some frames have instructions.
-/
import ChipEight.Proofs.Schedules

namespace ChipEight

open List (replicate)

/-! ## The cycles of some steps -/

namespace Cpu

variable {budget cycles : Int} {c s : Cpu} {k : Nat}

theorem cycles_of_stepped_nonneg (hb : 0 ≤ budget) (h : c.stepped budget k = .ok (s, cycles)) :
    0 ≤ cycles := by
  induction k generalizing s cycles with
  | zero =>
    cases h
    exact Int.le_refl 0
  | succ k ih =>
    obtain ⟨t, n, i, ht, -, -, rfl⟩ := exists_of_stepped_succ h
    have hn := ih ht
    have hcost := (t.cost i).cycles_nonneg hb
    omega

/-- The first step takes eight cycles, or all of a frame. -/
theorem le_cycles_of_stepped (hb : 0 ≤ budget) (hk : 1 ≤ k)
    (h : c.stepped budget k = .ok (s, cycles)) : 8 ≤ cycles ∨ budget ≤ cycles := by
  obtain ⟨k, rfl⟩ : ∃ l, k = l + 1 := ⟨k - 1, by omega⟩
  obtain ⟨t, n, i, ht, -, -, rfl⟩ := exists_of_stepped_succ h
  have hn := cycles_of_stepped_nonneg hb ht
  cases t.cost i with
  | instruction =>
    left
    simp only [Cost.cycles, Cost.perInstruction]
    omega
  | restOfFrame =>
    right
    simp only [Cost.cycles]
    omega

/-- Without a display wait every step takes eight cycles. -/
theorem cycles_of_stepped (hw : c.dialect.displayWait = false)
    (h : c.stepped budget k = .ok (s, cycles)) :
    cycles = 8 * k ∧ s.dialect = c.dialect := by
  induction k generalizing s cycles with
  | zero =>
    cases h
    exact ⟨rfl, rfl⟩
  | succ k ih =>
    obtain ⟨t, n, i, ht, -, rfl, rfl⟩ := exists_of_stepped_succ h
    obtain ⟨hn, hdialect⟩ := ih ht
    have hcost : t.cost i = .instruction := by
      rw [cost, if_neg]
      simp [hdialect, hw]
    refine ⟨?_, (dialect_execute i t.advance).trans hdialect⟩
    rw [hcost, Cost.cycles, Cost.perInstruction, hn]
    omega

/-- Single steps make any run, apart from the timers. -/
theorem Runs.untimed_steps {m : Machine} {is : List Instruction} (h : m.cpu.Runs is c)
    (his : ∀ i ∈ is, i.opcode ≠ .ldFromDelay) :
    (m.steered true (replicate is.length .step)).cpu.untimed = c.untimed := by
  induction h with
  | nil => rfl
  | @cons is u i _ hi ih =>
    have ih := ih fun j hj => his j (by simp [hj])
    rw [← fetch_eq_of_untimed_eq ih] at hi
    rw [List.length_cons, List.replicate_succ', Machine.steered_append]
    rw [Machine.steered_step, Machine.stepInstruction_of_fetch hi]
    simpa using perform_congr_untimed ih (his i (by simp))

end Cpu

namespace Machine

variable {s : Machine} {k m : Nat} {c : Cpu} {cycles e n : Int}

/-! ## The single steps of one frame -/

theorem countCycles_of_lt (h : s.stepCycles + n < s.budget) :
    s.countCycles n = { s with stepCycles := s.stepCycles + n } :=
  countCycles_of_not_ticksAfter (fun hfull => absurd hfull.2 (by omega)) s.cpu

theorem countCycles_of_le (hb : 0 < s.budget) (h : s.budget ≤ s.stepCycles + n) :
    s.countCycles n =
      { s with cpu := s.cpu.tickTimers, stepCycles := s.stepCycles + n - s.budget } :=
  countCycles_of_ticksAfter ⟨by omega, h⟩ s.cpu

/-- Up to the last step of the frame, the cycles before it and those carried over are fewer than a
frame has. -/
def PacedBelow (s : Machine) (k : Nat) (excess : Int) : Prop :=
  ∀ i c cycles, 1 ≤ i → i < k → s.cpu.stepped s.budget i = .ok (c, cycles) →
    excess + cycles < s.budget

/-- Single steps that do not use up the cycles of a frame only count them. -/
theorem steps_of_stepped (h : s.cpu.stepped s.budget k = .ok (c, cycles))
    (hpace : s.PacedBelow (k + 1) e) :
    ({ s with stepCycles := e }).steered true (replicate k .step) =
      { s with cpu := c, stepCycles := e + cycles } := by
  induction k generalizing c cycles with
  | zero =>
    cases h
    rw [Int.add_zero]
    rfl
  | succ k ih =>
    obtain ⟨t, l, i, ht, hi, rfl, rfl⟩ := Cpu.exists_of_stepped_succ h
    have hlt := hpace (k + 1) _ _ (by omega) (by omega) h
    rw [List.replicate_succ', steered_append]
    rw [ih ht fun j c cycles hj hjk => hpace j c cycles hj (by omega), steered_step,
      stepInstruction_of_fetch (s := { s with cpu := t, stepCycles := e + l }) hi,
      countCycles_of_lt]
    · simp only [Int.add_assoc]
      rfl
    · simp only [budget] at hlt ⊢
      omega

/-- The single steps of a frame that uses up its cycles, if the cycles carried over let the timers
not tick early. -/
theorem steps_of_endsAt (hb : 0 < s.budget) (he : 0 ≤ e) (h : s.EndsAt k c cycles)
    (hc : s.budget ≤ cycles) (hpace : s.PacedBelow k e) :
    ({ s with stepCycles := e }).steered true (replicate k .step) =
      { s with cpu := c.tickTimers, stepCycles := e + cycles - s.budget } := by
  obtain ⟨k, rfl⟩ : ∃ l, k = l + 1 := ⟨k - 1, by have := h.pos; omega⟩
  obtain ⟨t, l, i, ht, hi, rfl, rfl⟩ := Cpu.exists_of_stepped_succ h.stepped
  rw [List.replicate_succ', steered_append, steps_of_stepped ht hpace, steered_step,
    stepInstruction_of_fetch (s := { s with cpu := t, stepCycles := e + l }) hi,
    countCycles_of_le]
  · simp only [Int.add_assoc]
    rfl
  · exact hb
  · simp only [budget] at hc ⊢
    omega

/-! ## Full frames -/

/-- The next `m` frames use up their cycles, without a breakpoint or a stop. -/
inductive FullFrames : Nat → Machine → Prop
  | zero {s : Machine} : FullFrames 0 s
  | succ {m k : Nat} {s : Machine} {c : Cpu} {cycles : Int} :
    s.isLive = true → s.EndsAt k c cycles → c.pc ∉ s.breakpoints → s.budget ≤ cycles →
      FullFrames m { s with cpu := c.tickTimers } → FullFrames (m + 1) s

theorem steered_ticks_of_not_isLive (h : s.isLive = false) :
    s.steered true (replicate m .tick) = s := by
  induction m with
  | zero => rfl
  | succ m ih =>
    rw [List.replicate_succ, steered_cons, steered_tick, tick_of_not_isLive h, ih]

/-- The first of some frames, with its instructions. -/
theorem ticks_of_endsAt (hl : s.isLive = true) (hb : 0 < s.budget) (h : s.EndsAt k c cycles)
    (hpc : c.pc ∉ s.breakpoints) (m : Nat) :
    s.steered true (replicate (m + 1) .tick) =
        ({ s with cpu := c.tickTimers }).steered true (replicate m .tick) ∧
      (s.executed (replicate (m + 1) .tick)).length =
        k + (({ s with cpu := c.tickTimers }).executed (replicate m .tick)).length := by
  obtain ⟨htick, hcount⟩ := tick_of_endsAt hl hb h hpc
  rw [← steered_tick] at htick
  rw [← reports_tick] at hcount
  constructor
  · rw [List.replicate_succ, steered_cons, htick]
  · rw [List.replicate_succ, executed_cons, htick, List.length_append, hcount, Nat.add_comm]

/-- If no frame meets a breakpoint or a word that is no instruction, and the program is running
after them, then all of them have used up their cycles. -/
theorem fullFrames_of_running (hl : s.isLive = true) (hb : 0 < s.budget)
    (hpc : ∀ a, a ∉ s.breakpoints)
    (hok : ∀ j < m, ((s.steered true (replicate j .tick)).tick true).result = .ok ())
    (hrun : (s.steered true (replicate m .tick)).cpu.running = true) : FullFrames m s := by
  induction m generalizing s with
  | zero => exact .zero
  | succ m ih =>
    rcases tick_cases hl hb true with ⟨k, c, cycles, hends, -⟩ | ⟨k, c, e, -, hfails, -⟩
    · have hsteered := fun j => (ticks_of_endsAt hl hb hends (hpc c.pc) j).1
      rw [hsteered] at hrun
      have hc : c.running = true := by
        cases hr : c.running with
        | true => rfl
        | false =>
          have hdead : ({ s with cpu := c.tickTimers } : Machine).isLive = false := by
            simp [isLive, Cpu.tickTimers, hr]
          rw [steered_ticks_of_not_isLive hdead] at hrun
          exact hr.symm.trans hrun
      refine .succ hl hends (hpc c.pc) (hends.le_cycles (hpc c.pc) hc) (ih ?_ hb hpc ?_ hrun)
      · exact isLive_iff.2 ⟨hc, (isLive_iff.1 hl).2⟩
      · intro j hj
        rw [← hsteered]
        exact hok (j + 1) (by omega)
    · have hfirst : (s.tick true).result = .ok () := hok 0 (by omega)
      rw [hfails] at hfirst
      cases hfirst

/-! ## Keeping pace -/

/-- The cycles that are carried over, `excess` at first, never let the timers tick before the last
instruction of one of the next `m` frames. -/
def KeepsPace : Nat → Machine → Int → Prop
  | 0, _, _ => True
  | m + 1, s, excess => ∀ k c cycles, s.EndsAt k c cycles →
    s.PacedBelow k excess ∧ KeepsPace m (s.tick true).machine (excess + cycles - s.budget)

/-- A frame of one instruction keeps pace whatever is carried over. -/
theorem FullFrames.keepsPace_of_le (h : FullFrames m s) (hb : 0 < s.budget) (hle : s.budget ≤ 8) :
    KeepsPace m s e := by
  induction h generalizing e with
  | zero => trivial
  | @succ m _ s _ _ hl hends hpc _ _ ih =>
    obtain ⟨htick, -⟩ := tick_of_endsAt hl hb hends hpc
    intro k c cycles hends'
    refine ⟨fun i t n hi hik ht => ?_, ?_⟩
    · -- There is no step before the last one.
      exfalso
      have hlong := Cpu.le_cycles_of_stepped (Int.le_of_lt hb) hi ht
      exact hends'.goesOn i t n hi hik ht (.inr (.inr (by omega)))
    · rw [htick]
      exact ih hb hle

/-- Frames that use up their cycles exactly carry nothing over. -/
theorem FullFrames.keepsPace_of_dvd (h : FullFrames m s) (hb : 0 < s.budget) (hdvd : 8 ∣ s.budget)
    (hw : s.cpu.dialect.displayWait = false) : KeepsPace m s 0 := by
  induction h with
  | zero => trivial
  | @succ m k s c cycles hl hends hpc hc _ ih =>
    obtain ⟨htick, -⟩ := tick_of_endsAt hl hb hends hpc
    obtain ⟨hcycles, hdialect⟩ := Cpu.cycles_of_stepped hw hends.stepped
    have hexact : cycles = s.budget := by
      obtain ⟨k, rfl⟩ : ∃ l, k = l + 1 := ⟨k - 1, by have := hends.pos; omega⟩
      obtain ⟨t, n, i, ht, -⟩ := Cpu.exists_of_stepped_succ hends.stepped
      obtain ⟨hn, -⟩ := Cpu.cycles_of_stepped hw ht
      rcases Nat.eq_zero_or_pos k with rfl | hk
      · omega
      · have hbefore : ¬s.budget ≤ n :=
          fun hle => hends.goesOn k t n hk (by omega) ht (.inr (.inr hle))
        omega
    intro k' c' cycles' hends'
    obtain ⟨rfl, rfl, rfl⟩ := hends.eq hends'
    refine ⟨fun i t n hi hik ht => ?_, ?_⟩
    · have hbefore : ¬s.budget ≤ n :=
        fun hle => hends.goesOn i t n hi hik ht (.inr (.inr hle))
      omega
    · rw [htick, hexact, Int.zero_add, Int.sub_self]
      exact ih hb hdvd (by rw [← hw, ← hdialect]; rfl)

/-- Single steps do what frames do, as long as they keep pace. -/
theorem FullFrames.steps (h : FullFrames m s) (hb : 0 < s.budget) (he : 0 ≤ e)
    (hpace : KeepsPace m s e) :
    ∃ e', ({ s with stepCycles := e }).steered true
        (replicate (s.executed (replicate m .tick)).length .step) =
      { s.steered true (replicate m .tick) with stepCycles := e' } := by
  induction h generalizing e with
  | zero => exact ⟨e, rfl⟩
  | @succ m k s c cycles hl hends hpc hc _ ih =>
    obtain ⟨htick, -⟩ := tick_of_endsAt hl hb hends hpc
    obtain ⟨hpaced, hrest⟩ := hpace k c cycles hends
    rw [htick] at hrest
    obtain ⟨e', he'⟩ := ih hb (by omega) hrest
    obtain ⟨hsteered, hlength⟩ := ticks_of_endsAt hl hb hends hpc m
    refine ⟨e', ?_⟩
    rw [hsteered, hlength, ← List.replicate_append_replicate, steered_append,
      steps_of_endsAt hb he hends hc hpaced]
    exact he'

/-! ## Steps and frames -/

/-- Take as many single steps as some frames have instructions, from a machine that has counted no
cycles yet.  The processor is the same as after the frames if the cycles that are carried over
never let the timers tick early, and otherwise it is the same but for its timers if the program
does not read the delay timer.  The timers do not tick early if a frame has no more cycles than an
instruction, or as many as some instructions and drawing does not wait. -/
theorem steps_eq_frames (s : Machine) (trace : Bool) (m : Nat) (hl : s.isLive = true)
    (hzero : s.stepCycles = 0) (hb : 0 < s.budget) (hpc : ∀ a, a ∉ s.breakpoints)
    (hok : ∀ j < m, ((s.steered trace (replicate j .tick)).tick trace).result = .ok ())
    (hrun : (s.steered trace (replicate m .tick)).cpu.running = true) :
    let instructions := s.executed (replicate m .tick)
    let frames := (s.steered trace (replicate m .tick)).cpu
    let steps := (s.steered trace (replicate instructions.length .step)).cpu
    (KeepsPace m s 0 → steps = frames) ∧
      ((∀ i ∈ instructions, i.opcode ≠ .ldFromDelay) → steps.untimed = frames.untimed) ∧
      (s.budget ≤ 8 ∨ 8 ∣ s.budget ∧ s.cpu.dialect.displayWait = false → KeepsPace m s 0) := by
  simp only [steered_trace s trace] at hok hrun ⊢
  simp only [(tick_trace _ trace).2] at hok
  have hfull := fullFrames_of_running hl hb hpc hok hrun
  refine ⟨fun hpace => ?_, fun hreads => ?_, ?_⟩
  · obtain ⟨e, he⟩ := hfull.steps hb (Int.le_refl 0) hpace
    have hsame : { s with stepCycles := 0 } = s := by rw [← hzero]
    rw [hsame] at he
    show (s.steered true _).cpu = _
    rw [he]
  · obtain ⟨c, hc, hframes⟩ := s.runs_steered _ hreads
    rw [hframes]
    exact hc.untimed_steps hreads
  · rintro (hle | ⟨hdvd, hw⟩)
    · exact hfull.keepsPace_of_le hb hle
    · exact hfull.keepsPace_of_dvd hb hdvd hw

/-! ## A timer that is set -/

/-- A frame that has room for two instructions. -/
theorem tick_of_pair {i j : Instruction} (hl : s.isLive = true)
    (hb : 8 < s.budget ∧ s.budget ≤ 16) (hpc : ∀ a, a ∉ s.breakpoints)
    (hi : s.cpu.fetch = .ok i) (hci : s.cpu.cost i = .instruction)
    (hr : (s.cpu.perform i).running = true) (hj : (s.cpu.perform i).fetch = .ok j)
    (hcj : (s.cpu.perform i).cost j = .instruction) :
    s.tick true = ⟨{ s with cpu := ((s.cpu.perform i).perform j).tickTimers },
      (s.cpu.perform i).stepNotices true j ++ (s.cpu.stepNotices true i ++ []), .ok ()⟩ := by
  obtain ⟨hlow, hhigh⟩ := hb
  refine tick_of_complete hl ?_
  rw [runCycles_of_fetch (by omega) (isLive_iff.1 hl).1 hi (hpc _), hci]
  have hleft : Cost.left s.budget.toNat .instruction = s.budget.toNat - 8 := rfl
  have hnone : Cost.left (s.budget.toNat - 8) .instruction = 0 := by
    show s.budget.toNat - 8 - 8 = 0
    omega
  rw [hleft, runCycles_of_fetch (by omega) hr hj (hpc _), hcj, hnone, runCycles_zero]

/-- A program that sets the delay timer to sixty and then does nothing. -/
def countdown : Image :=
  [0x60, 0x3C, 0xF0, 0x15]

/-- A machine with that program. -/
def timed (d : Dialect) (clock : Int) : Machine :=
  { fresh d clock 0 with program := countdown }.reset none

section Timed

variable {d : Dialect} {clock : Int}

theorem fetch_timed (d : Dialect) (clock : Int) (hm : c.memory = (timed d clock).cpu.memory) :
    (c.pc = 0x200 → c.fetch = .ok ⟨.ldByte, [0, 60]⟩) ∧
      (c.pc = 0x202 → c.fetch = .ok ⟨.ldDelay, [0]⟩) ∧
      (c.pc = 0x204 ∨ c.pc = 0x206 → c.fetch = .ok ⟨.sys, [0]⟩) := by
  have hfetch : ∀ (k : Nat) (i : Instruction), k + 1 < Memory.programLimit →
      c.pc = Memory.programStart + k →
      Instruction.decode
        ((countdown.getD k 0).toNat * 256 + (countdown.getD (k + 1) 0).toNat : Nat) = .ok i →
      c.fetch = .ok i :=
    fun k i hk hpc hi => fetch_of_program countdown hm rfl (by decide) hpc hk hi
  refine ⟨fun hpc => ?_, fun hpc => ?_, ?_⟩
  · exact hfetch 0 _ (by decide) hpc rfl
  · exact hfetch 2 _ (by decide) hpc rfl
  · rintro (hpc | hpc)
    · exact hfetch 4 _ (by decide) hpc rfl
    · exact hfetch 6 _ (by decide) hpc rfl

/-- Two frames of that machine, if each has room for two instructions. -/
theorem ticks_timed (d : Dialect) (clock : Int)
    (hb : 8 < (timed d clock).budget ∧ (timed d clock).budget ≤ 16) :
    (∀ j < 2, (((timed d clock).steered true (replicate j .tick)).tick true).result = .ok ()) ∧
      ((timed d clock).steered true (replicate 2 .tick)).cpu.running = true ∧
      ((timed d clock).steered true (replicate 2 .tick)).cpu.delay = 58 ∧
      ((timed d clock).executed (replicate 2 .tick)).length = 4 := by
  have hpc : ∀ a, a ∉ (timed d clock).breakpoints := fun a ha => by cases ha
  let s := timed d clock
  let c₁ := s.cpu.perform ⟨.ldByte, [0, 60]⟩
  let c₂ := (c₁.perform ⟨.ldDelay, [0]⟩).tickTimers
  let c₃ := c₂.perform ⟨.sys, [0]⟩
  let s₂ := { s with cpu := c₂ }
  have hset : s.cpu.fetch = .ok ⟨.ldByte, [0, 60]⟩ := (fetch_timed d clock rfl).1 rfl
  have hstart : c₁.fetch = .ok ⟨.ldDelay, [0]⟩ := (fetch_timed (c := c₁) d clock rfl).2.1 rfl
  have hthird : c₂.fetch = .ok ⟨.sys, [0]⟩ := (fetch_timed (c := c₂) d clock rfl).2.2 (.inl rfl)
  have hfourth : c₃.fetch = .ok ⟨.sys, [0]⟩ := (fetch_timed (c := c₃) d clock rfl).2.2 (.inr rfl)
  have hfirst : s.tick true = ⟨s₂, _, _⟩ := tick_of_pair rfl hb hpc hset rfl rfl hstart rfl
  have hsecond := tick_of_pair (s := s₂) rfl hb hpc hthird rfl rfl hfourth rfl
  have hone : s.steered true [.tick] = s₂ := by rw [steered_tick, hfirst]
  have htwo : s.steered true [.tick, .tick] =
      { s with cpu := (c₃.perform ⟨.sys, [0]⟩).tickTimers } := by
    rw [steered_cons, hone, steered_tick, hsecond]
  refine ⟨fun j hj => ?_, ?_⟩
  · rcases j with - | j
    · show (s.tick true).result = _
      rw [hfirst]
    · obtain rfl : j = 0 := by omega
      show ((s.steered true [.tick]).tick true).result = _
      rw [hone, hsecond]
  · show (s.steered true [.tick, .tick]).cpu.running = true ∧
      (s.steered true [.tick, .tick]).cpu.delay = 58 ∧ (s.executed [.tick, .tick]).length = 4
    rw [htwo, executed_cons, hone, executed_cons, executed_nil]
    refine ⟨rfl, rfl, ?_⟩
    rw [reports_tick, reports_tick, hfirst, hsecond]
    rfl

/-- A single step of that machine. -/
theorem step_timed (d : Dialect) (clock : Int) {i : Instruction} (hi : c.fetch = .ok i)
    (hcost : c.cost i = .instruction) :
    ({ timed d clock with cpu := c, stepCycles := e }).steered true [.step] =
      ({ timed d clock with cpu := c.perform i, stepCycles := e }).countCycles 8 := by
  rw [steered_step,
    stepInstruction_of_fetch (s := { timed d clock with cpu := c, stepCycles := e }) hi]
  dsimp only
  rw [hcost]
  rfl

/-- Single steps keep pace with the two frames of sixteen cycles. -/
theorem steps_eq_frames_of_timed :
    let s := timed .superchip 96000
    s.isLive = true ∧ s.stepCycles = 0 ∧ 0 < s.budget ∧ (∀ a, a ∉ s.breakpoints) ∧
      (∀ j < 2, ((s.steered true (replicate j .tick)).tick true).result = .ok ()) ∧
      (s.steered true (replicate 2 .tick)).cpu.running = true ∧
      (s.steered true (replicate 4 .step)).cpu = (s.steered true (replicate 2 .tick)).cpu := by
  intro s
  have hpc : ∀ a, a ∉ s.breakpoints := fun a ha => by cases ha
  have hb : 0 < s.budget := by decide
  obtain ⟨hok, hrun, -, hlength⟩ := ticks_timed .superchip 96000 (by decide)
  obtain ⟨hsame, -, hpace⟩ := steps_eq_frames s true 2 rfl rfl hb hpc hok hrun
  rw [hlength] at hsame
  exact ⟨rfl, rfl, hb, hpc, hok, hrun, hsame (hpace (.inr (by decide)))⟩

/-- Two frames of nine cycles have four instructions.  The timers tick twice under the frames, and
after each of the last three instructions under single steps. -/
theorem steps_ahead_of_frames :
    let s := timed .chip8 54000
    s.isLive = true ∧ s.stepCycles = 0 ∧ 0 < s.budget ∧ (∀ a, a ∉ s.breakpoints) ∧
      (∀ j < 2, ((s.steered true (replicate j .tick)).tick true).result = .ok ()) ∧
      (s.steered true (replicate 2 .tick)).cpu.running = true ∧
      (s.executed (replicate 2 .tick)).length = 4 ∧
      (s.steered true (replicate 2 .tick)).cpu.delay = 58 ∧
      (s.steered true (replicate 4 .step)).cpu.delay = 57 := by
  intro s
  have hpc : ∀ a, a ∉ s.breakpoints := fun a ha => by cases ha
  obtain ⟨hok, hrun, hdelay, hlength⟩ := ticks_timed .chip8 54000 (by decide)
  let c₁ := s.cpu.perform ⟨.ldByte, [0, 60]⟩
  let c₂ := (c₁.perform ⟨.ldDelay, [0]⟩).tickTimers
  let c₃ := (c₂.perform ⟨.sys, [0]⟩).tickTimers
  let c₄ := (c₃.perform ⟨.sys, [0]⟩).tickTimers
  have hset := (fetch_timed (c := s.cpu) .chip8 54000 rfl).1 rfl
  have hstart := (fetch_timed (c := c₁) .chip8 54000 rfl).2.1 rfl
  have hthird := (fetch_timed (c := c₂) .chip8 54000 rfl).2.2 (.inl rfl)
  have hfourth := (fetch_timed (c := c₃) .chip8 54000 rfl).2.2 (.inr rfl)
  have hone : s.steered true [.step] = { s with cpu := c₁, stepCycles := 8 } := by
    have hstep := step_timed (e := 0) .chip8 54000 hset rfl
    rw [countCycles_of_lt (by decide)] at hstep
    exact hstep
  have htwo : ({ s with cpu := c₁, stepCycles := 8 }).steered true [.step] =
      { s with cpu := c₂, stepCycles := 7 } := by
    rw [step_timed .chip8 54000 hstart rfl]
    exact countCycles_of_le (by decide) (by decide)
  have hthree : ({ s with cpu := c₂, stepCycles := 7 }).steered true [.step] =
      { s with cpu := c₃, stepCycles := 6 } := by
    rw [step_timed .chip8 54000 hthird rfl]
    exact countCycles_of_le (by decide) (by decide)
  have hfour : ({ s with cpu := c₃, stepCycles := 6 }).steered true [.step] =
      { s with cpu := c₄, stepCycles := 5 } := by
    rw [step_timed .chip8 54000 hfourth rfl]
    exact countCycles_of_le (by decide) (by decide)
  refine ⟨rfl, rfl, by decide, hpc, hok, hrun, hlength, hdelay, ?_⟩
  have hsteps : replicate 4 Control.step = [.step, .step, .step, .step] := rfl
  rw [hsteps, steered_cons, hone, steered_cons, htwo, steered_cons, hthree, hfour]
  rfl

end Timed

end Machine

end ChipEight
