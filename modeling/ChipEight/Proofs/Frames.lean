/-
A frame is as many plain steps of the processor as it takes until one of three things happens: the
program counter meets a breakpoint, the program stops, or the cycles are used up.

Main definitions:
* `Cpu.stepped`: the processor after some steps, with the cycles that they took;
* `Machine.EndsAt`, `Machine.FaultsAt`: how many steps a frame has.

Main statements:
* `Cpu.TimersNonneg.stepped`: no step puts a timer below zero;
* `Machine.runCycles_spec`: what the loop of a frame does is a number of steps;
* `Machine.tick_eq_steps`: a frame is that number of steps, followed by a tick of the timers unless
  it ended at a breakpoint.
-/
import ChipEight.Proofs.Dependence
import ChipEight.Proofs.Executions
import ChipEight.Proofs.Programs

namespace ChipEight

/-! ## Plain steps -/

namespace Cpu

/-- The processor after some steps, with the cycles that they took in a frame of `budget`
cycles. -/
def stepped (budget : Int) (c : Cpu) : Nat → Except InvalidOpcode (Cpu × Int)
  | 0 => .ok (c, 0)
  | k + 1 => do
    let (s, cycles) ← c.stepped budget k
    let (cost, s') ← s.step
    return (s', cycles + cost.cycles budget)

variable {budget : Int} {c s s' : Cpu} {k : Nat} {cycles : Int}

theorem stepped_succ {cost : Cost} (h : c.stepped budget k = .ok (s, cycles))
    (hs : s.step = .ok (cost, s')) :
    c.stepped budget (k + 1) = .ok (s', cycles + cost.cycles budget) := by
  rw [stepped, h]
  change (s.step >>= _) = _
  rw [hs]
  rfl

theorem stepped_succ_eq_error {e : InvalidOpcode} (h : c.stepped budget k = .ok (s, cycles))
    (hs : s.step = .error e) : c.stepped budget (k + 1) = .error e := by
  rw [stepped, h]
  change (s.step >>= _) = _
  rw [hs]
  rfl

/-- There are no steps after one that failed. -/
theorem stepped_eq_error_of_le {e : InvalidOpcode} {l : Nat}
    (h : c.stepped budget k = .error e) (hl : k ≤ l) : c.stepped budget l = .error e := by
  induction hl with
  | refl => exact h
  | step _ ih =>
    rw [stepped, ih]
    rfl

theorem exists_of_stepped_succ (h : c.stepped budget (k + 1) = .ok (s, cycles)) :
    ∃ t n i, c.stepped budget k = .ok (t, n) ∧ t.fetch = .ok i ∧ s = t.perform i ∧
      cycles = n + (t.cost i).cycles budget := by
  cases hk : c.stepped budget k with
  | error e =>
    rw [stepped_eq_error_of_le hk (Nat.le_succ k)] at h
    cases h
  | ok p =>
    obtain ⟨t, n⟩ := p
    cases hi : t.fetch with
    | error e =>
      have herror : t.step = .error e := by rw [step, hi]
      rw [stepped_succ_eq_error hk herror] at h
      cases h
    | ok i =>
      rw [stepped_succ hk (step_of_fetch hi)] at h
      cases h
      exact ⟨t, n, i, rfl, hi, rfl, rfl⟩

/-! ## The timers -/

/-- An instruction sets a timer to what a register holds, or leaves it alone. -/
theorem TimersNonneg.perform (h : c.TimersNonneg) (i : Instruction) :
    (c.perform i).TimersNonneg := by
  constructor
  · rw [Cpu.perform, delay_execute]
    split
    · exact Int.natCast_nonneg _
    · exact h.delay
  · rw [Cpu.perform, sound_execute]
    split
    · exact Int.natCast_nonneg _
    · exact h.sound

theorem TimersNonneg.stepped (h : c.TimersNonneg) (hk : c.stepped budget k = .ok (s, cycles)) :
    s.TimersNonneg := by
  induction k generalizing s cycles with
  | zero =>
    rw [Cpu.stepped, Except.ok.injEq, Prod.mk.injEq] at hk
    obtain ⟨rfl, -⟩ := hk
    exact h
  | succ k ih =>
    obtain ⟨t, n, i, ht, hi, rfl, -⟩ := exists_of_stepped_succ hk
    exact (ih ht).perform i

end Cpu

/-- The cycles that are left are the difference to those that were counted. -/
theorem Cost.left_eq_toNat {budget cycles : Int} (h : 0 ≤ cycles) (cost : Cost) :
    cost.left (budget - cycles).toNat = (budget - (cycles + cost.cycles budget)).toNat := by
  cases cost with
  | instruction =>
    simp only [left, Cost.cycles, perInstruction]
    omega
  | restOfFrame =>
    simp only [left, Cost.cycles]
    omega

theorem Cost.cycles_nonneg {budget : Int} (h : 0 ≤ budget) (cost : Cost) :
    0 ≤ cost.cycles budget := by
  cases cost with
  | instruction =>
    rw [cycles]
    omega
  | restOfFrame => exact h

namespace Machine

open Memory (read_fresh)

/-! ## The end of a frame -/

/-- A frame with some breakpoints and cycles does not go on from a processor. -/
def FrameOver (breakpoints : Breakpoints) (budget : Int) (c : Cpu) (cycles : Int) : Prop :=
  c.pc ∈ breakpoints ∨ c.running = false ∨ budget ≤ cycles

/-- The frame of a machine goes on at all processors after a positive number of steps below
`k`. -/
def GoesOnBelow (s : Machine) (k : Nat) : Prop :=
  ∀ i c cycles, 1 ≤ i → i < k → s.cpu.stepped s.budget i = .ok (c, cycles) →
    ¬FrameOver s.breakpoints s.budget c cycles

theorem GoesOnBelow.succ {s : Machine} {k : Nat} {c : Cpu} {cycles : Int} (h : s.GoesOnBelow k)
    (hs : s.cpu.stepped s.budget k = .ok (c, cycles)) (hpc : 1 ≤ k → c.pc ∉ s.breakpoints)
    (hr : c.running = true) (hc : cycles < s.budget) : s.GoesOnBelow (k + 1) := by
  intro i c' cycles' hi hk hi'
  by_cases hik : i = k
  · subst hik
    rw [hs, Except.ok.injEq, Prod.mk.injEq] at hi'
    obtain ⟨rfl, rfl⟩ := hi'
    rintro (hover | hover | hover)
    · exact hpc hi hover
    · rw [hr] at hover
      cases hover
    · omega
  · exact h i c' cycles' hi (by omega) hi'

/-- The frame of a machine is over after `k` steps, and not before. -/
structure EndsAt (s : Machine) (k : Nat) (c : Cpu) (cycles : Int) : Prop where
  pos : 1 ≤ k
  stepped : s.cpu.stepped s.budget k = .ok (c, cycles)
  ended : FrameOver s.breakpoints s.budget c cycles
  goesOn : s.GoesOnBelow k

/-- The frame of a machine goes on for `k` steps, and the next step fails. -/
structure FaultsAt (s : Machine) (k : Nat) (c : Cpu) (e : InvalidOpcode) : Prop where
  stepped : ∃ cycles, s.cpu.stepped s.budget k = .ok (c, cycles)
  fails : c.step = .error e
  goesOn : s.GoesOnBelow (k + 1)

theorem EndsAt.pc_not_mem {s : Machine} {k : Nat} {c c' : Cpu} {cycles cycles' : Int}
    (h : s.EndsAt k c cycles) {i : Nat} (hi : 1 ≤ i) (hk : i < k)
    (hs : s.cpu.stepped s.budget i = .ok (c', cycles')) : c'.pc ∉ s.breakpoints :=
  fun hpc => h.goesOn i c' cycles' hi hk hs (.inl hpc)

theorem not_faultsAt {s : Machine} {k l : Nat} {c c' : Cpu} {cycles : Int} {e : InvalidOpcode}
    (h : s.EndsAt k c cycles) (h' : s.FaultsAt l c' e) : False := by
  obtain ⟨cycles', hl⟩ := h'.stepped
  by_cases hkl : k ≤ l
  · exact h'.goesOn k c cycles h.pos (by omega) h.stepped h.ended
  · have herror := Cpu.stepped_eq_error_of_le (Cpu.stepped_succ_eq_error hl h'.fails)
      (show l + 1 ≤ k by omega)
    rw [h.stepped] at herror
    cases herror

/-! ## The loop of a frame -/

/-- What is known of the processor `c` at which the loop of a frame is left, after `k` steps with
so many cycles. -/
def LeavesAt (s : Machine) (k : Nat) (c : Cpu) (cycles : Int) : FrameEnd → Prop
  | .breakpoint => 1 ≤ k ∧ c.pc ∈ s.breakpoints
  | .complete => (1 ≤ k → c.pc ∉ s.breakpoints) ∧ (c.running = false ∨ s.budget ≤ cycles)
  | .fault e => (1 ≤ k → c.pc ∉ s.breakpoints) ∧ c.running = true ∧ cycles < s.budget ∧
      c.step = .error e

/-- The loop makes plain steps, as long as the frame goes on, and reports each of them. -/
theorem runCycles_spec (s : Machine) (trace : Bool) (journal : List Event) {left : Nat} {cpu : Cpu}
    {j : Nat} {cycles : Int}
    (hj : s.cpu.stepped s.budget j = .ok (cpu, cycles)) (hleft : left = (s.budget - cycles).toNat)
    (hcycles : 0 ≤ cycles) (hbudget : 0 ≤ s.budget) (hpc : 1 ≤ j → cpu.pc ∉ s.breakpoints)
    (hgo : s.GoesOnBelow j) :
    ∃ k c cycles, s.cpu.stepped s.budget k = .ok (c, cycles) ∧ s.GoesOnBelow k ∧
      (runCycles trace s.breakpoints left cpu journal).cpu = c ∧
      s.LeavesAt k c cycles (runCycles trace s.breakpoints left cpu journal).ending ∧
      (trace = true →
        (executions (runCycles trace s.breakpoints left cpu journal).journal).length + j =
          (executions journal).length + k) := by
  -- By induction on the rounds of the loop; the cycles that are left tell how many were counted.
  fun_induction runCycles trace s.breakpoints left cpu journal generalizing j cycles with
  | case1 left cpu journal h e hfetch =>
    have hstep : cpu.step = .error e := by rw [Cpu.step, hfetch]
    exact ⟨j, cpu, cycles, hj, hgo, rfl, ⟨hpc, h.2, by omega, hstep⟩, fun _ => by simp⟩
  | case2 left cpu journal h i hfetch =>
    rename_i cpu' hbreak
    have hsucc := Cpu.stepped_succ hj (Cpu.step_of_fetch hfetch)
    have hgo' := hgo.succ hj hpc h.2 (by omega)
    refine ⟨j + 1, cpu', _, hsucc, hgo', rfl, ⟨by omega, hbreak⟩, ?_⟩
    rintro rfl
    show (executions (.breakpoint _ :: (cpu.stepNotices true i ++ journal))).length + j = _
    simp only [executions_breakpoint, executions_stepNotices, List.length_cons]
    omega
  | case3 left cpu journal h i hfetch =>
    rename_i cost cpu' hbreak ih
    have hsucc := Cpu.stepped_succ hj (Cpu.step_of_fetch hfetch)
    have hgo' := hgo.succ hj hpc h.2 (by omega)
    have hcost := (cpu.cost i).cycles_nonneg hbudget
    have hleft' : cost.left left = (s.budget - (cycles + cost.cycles s.budget)).toNat := by
      rw [hleft, Cost.left_eq_toNat hcycles]
    obtain ⟨k, c, cycles', hk, hgok, hc, hleaves, hcount⟩ :=
      ih hsucc hleft' (by omega) (fun _ => hbreak) hgo'
    refine ⟨k, c, cycles', hk, hgok, hc, hleaves, ?_⟩
    rintro rfl
    have hcount : _ = (executions (cpu.stepNotices true i ++ journal)).length + k := hcount rfl
    rw [executions_stepNotices, List.length_cons] at hcount
    omega
  | case4 left cpu journal h =>
    refine ⟨j, cpu, cycles, hj, hgo, rfl, ⟨hpc, ?_⟩, fun _ => rfl⟩
    cases hr : cpu.running with
    | false => exact .inl rfl
    | true =>
      have hleft' : ¬0 < left := fun hpos => h ⟨hpos, hr⟩
      exact .inr (by omega)

/-! ## Frames -/

theorem isLive_iff {s : Machine} : s.isLive = true ↔ s.cpu.running = true ∧ s.halted = false := by
  simp [isLive]

section Ends

variable {s : Machine} {k k' : Nat} {c c' : Cpu} {cycles cycles' : Int} {e e' : InvalidOpcode}

/-- A frame is over after one number of steps only. -/
theorem EndsAt.eq (h : s.EndsAt k c cycles) (h' : s.EndsAt k' c' cycles') :
    k = k' ∧ c = c' ∧ cycles = cycles' := by
  rcases Nat.lt_trichotomy k k' with hlt | rfl | hlt
  · exact absurd h.ended (h'.goesOn k c cycles h.pos hlt h.stepped)
  · have heq := h.stepped.symm.trans h'.stepped
    rw [Except.ok.injEq, Prod.mk.injEq] at heq
    exact ⟨rfl, heq⟩
  · exact absurd h'.ended (h.goesOn k' c' cycles' h'.pos hlt h'.stepped)

theorem EndsAt.unique (h : s.EndsAt k c cycles) (h' : s.EndsAt k' c' cycles') : c = c' :=
  (h.eq h').2.1

/-- A frame that ends neither at a breakpoint nor because the program stops has used up its
cycles. -/
theorem EndsAt.le_cycles (h : s.EndsAt k c cycles) (hpc : c.pc ∉ s.breakpoints)
    (hr : c.running = true) : s.budget ≤ cycles := by
  rcases h.ended with hmet | hstopped | hfull
  · exact absurd hmet hpc
  · rw [hr] at hstopped
    cases hstopped
  · exact hfull

theorem FaultsAt.not_lt (h : s.FaultsAt k c e) (h' : s.FaultsAt k' c' e') : ¬k < k' := by
  intro hlt
  obtain ⟨cycles, hk⟩ := h.stepped
  obtain ⟨cycles', hk'⟩ := h'.stepped
  have herror := Cpu.stepped_eq_error_of_le (Cpu.stepped_succ_eq_error hk h.fails)
    (show k + 1 ≤ k' by omega)
  rw [hk'] at herror
  cases herror

/-- A frame fails after one number of steps only. -/
theorem FaultsAt.unique (h : s.FaultsAt k c e) (h' : s.FaultsAt k' c' e') : c = c' ∧ e = e' := by
  have hle := h.not_lt h'
  have hge := h'.not_lt h
  obtain rfl : k = k' := by omega
  obtain ⟨cycles, hk⟩ := h.stepped
  obtain ⟨cycles', hk'⟩ := h'.stepped
  rw [hk, Except.ok.injEq, Prod.mk.injEq] at hk'
  obtain ⟨rfl, -⟩ := hk'
  have herror := h.fails.symm.trans h'.fails
  rw [Except.error.injEq] at herror
  exact ⟨rfl, herror⟩

/-- A frame with cycles is left when it is over, or a step has failed. -/
theorem endsAt_or_faultsAt {ending : FrameEnd} (hl : s.isLive = true) (hb : 0 < s.budget)
    (hk : s.cpu.stepped s.budget k = .ok (c, cycles)) (hgo : s.GoesOnBelow k) :
    s.LeavesAt k c cycles ending → match ending with
      | .fault e => s.FaultsAt k c e
      | .breakpoint => s.EndsAt k c cycles ∧ c.pc ∈ s.breakpoints
      | .complete => s.EndsAt k c cycles ∧ c.pc ∉ s.breakpoints := by
  intro h
  cases ending with
  | breakpoint => exact ⟨⟨h.1, hk, .inl h.2, hgo⟩, h.2⟩
  | fault e =>
    obtain ⟨hpc, hr, hc, he⟩ := h
    exact ⟨⟨cycles, hk⟩, he, hgo.succ hk hpc hr hc⟩
  | complete =>
    obtain ⟨hpc, hover⟩ := h
    rcases Nat.eq_zero_or_pos k with rfl | hpos
    · rw [Cpu.stepped, Except.ok.injEq, Prod.mk.injEq] at hk
      obtain ⟨rfl, rfl⟩ := hk
      rcases hover with hr | hc
      · rw [isLive, hr] at hl
        cases hl
      · omega
    · exact ⟨⟨hpos, hk, .inr hover, hgo⟩, hpc hpos⟩

/-- What a frame with cycles does, and how many instructions it reports if it is traced. -/
theorem tick_spec (hl : s.isLive = true) (hb : 0 < s.budget) (trace : Bool) :
    (∃ k c cycles, s.EndsAt k c cycles ∧ (s.tick trace).result = .ok () ∧
      (c.pc ∈ s.breakpoints → (s.tick trace).machine = { s with cpu := c, halted := true }) ∧
      (c.pc ∉ s.breakpoints →
        (s.tick trace).machine = { s with cpu := c.tickTimers, halted := false }) ∧
      (trace = true → (executions (s.tick trace).journal).length = k)) ∨
    ∃ k c e, s.FaultsAt k c e ∧ (s.tick trace).result = .error (.invalidOpcode e) ∧
      (s.tick trace).machine = { s with cpu := c } ∧
      (trace = true → (executions (s.tick trace).journal).length = k) := by
  have hhalted := (isLive_iff.1 hl).2
  have hstart : s.cpu.stepped s.budget 0 = .ok (s.cpu, 0) := rfl
  obtain ⟨k, c, cycles, hk, hgo, hc, hleaves, hcount⟩ := runCycles_spec s trace [] hstart
    (by rw [Int.sub_zero]) (Int.le_refl 0) (Int.le_of_lt hb) (fun h => absurd h (by decide))
    (fun i _ _ hi hlt => absurd hi (by omega))
  have hnone : (executions []).length = 0 := rfl
  have hcount : trace = true →
      (executions (runCycles trace s.breakpoints s.budget.toNat s.cpu []).journal).length = k := by
    intro htrace
    have hcount := hcount htrace
    omega
  have hends := endsAt_or_faultsAt hl hb hk hgo hleaves
  rw [tick, if_pos hl]
  generalize runCycles trace s.breakpoints s.budget.toNat s.cpu [] = frame at hc hends hcount
  obtain ⟨cpu, journal, ending⟩ := frame
  obtain rfl : cpu = c := hc
  cases ending with
  | breakpoint =>
    exact .inl ⟨k, cpu, cycles, hends.1, rfl, fun _ => rfl, fun hpc => absurd hends.2 hpc, hcount⟩
  | complete =>
    refine .inl ⟨k, cpu, cycles, hends.1, rfl, fun hpc => absurd hpc hends.2, fun _ => ?_, hcount⟩
    rw [← hhalted]
  | fault e => exact .inr ⟨k, cpu, e, hends, rfl, rfl, hcount⟩

theorem tick_cases (hl : s.isLive = true) (hb : 0 < s.budget) (trace : Bool) :
    (∃ k c cycles, s.EndsAt k c cycles ∧ (s.tick trace).result = .ok () ∧
      (c.pc ∈ s.breakpoints → (s.tick trace).machine = { s with cpu := c, halted := true }) ∧
      (c.pc ∉ s.breakpoints →
        (s.tick trace).machine = { s with cpu := c.tickTimers, halted := false })) ∨
    ∃ k c e, s.FaultsAt k c e ∧ (s.tick trace).result = .error (.invalidOpcode e) ∧
      (s.tick trace).machine = { s with cpu := c } := by
  rcases tick_spec hl hb trace with
    ⟨k, c, cycles, hends, hr, hpc, hnpc, -⟩ | ⟨k, c, e, hfaults, hr, hm, -⟩
  · exact .inl ⟨k, c, cycles, hends, hr, hpc, hnpc⟩
  · exact .inr ⟨k, c, e, hfaults, hr, hm⟩

/-- A frame that is over after some steps without a breakpoint, followed by a tick of the
timers. -/
theorem tick_of_endsAt (hl : s.isLive = true) (hb : 0 < s.budget) (h : s.EndsAt k c cycles)
    (hpc : c.pc ∉ s.breakpoints) :
    (s.tick true).machine = { s with cpu := c.tickTimers } ∧
      (executions (s.tick true).journal).length = k := by
  have hhalted := (isLive_iff.1 hl).2
  rcases tick_spec hl hb true with
    ⟨k', c', cycles', hends, -, -, hm, hcount⟩ | ⟨k', c', e, hfaults, -⟩
  · obtain ⟨rfl, rfl, -⟩ := h.eq hends
    rw [hm hpc, ← hhalted]
    exact ⟨rfl, hcount rfl⟩
  · exact (not_faultsAt h hfaults).elim

end Ends

/-- A frame is as many steps as it takes until it is over, and then the timers tick, unless it is
over because of a breakpoint; a frame without cycles only ticks the timers, and a machine that is
halted or stopped is left alone.  A tick takes one from each timer, but not below zero, and nothing
else changes. -/
theorem tick_eq_steps (s : Machine) (trace : Bool) :
    (s.isLive = false → (s.tick trace).machine = s ∧ (s.tick trace).result = .ok ()) ∧
    (s.isLive = true → s.budget ≤ 0 →
      (s.tick trace).result = .ok () ∧
      (s.tick trace).machine = { s with cpu := s.cpu.tickTimers } ∧
      (s.cpu.TimersNonneg → s.cpu.tickTimers =
        { s.cpu with delay := max (s.cpu.delay - 1) 0, sound := max (s.cpu.sound - 1) 0 })) ∧
    (s.isLive = true → 0 < s.budget →
      ((∃ k c cycles, s.EndsAt k c cycles) ∨ ∃ k c e, s.FaultsAt k c e) ∧
      (∀ k c cycles, s.EndsAt k c cycles →
        (s.tick trace).result = .ok () ∧
        (c.pc ∈ s.breakpoints → (s.tick trace).machine = { s with cpu := c, halted := true }) ∧
        (c.pc ∉ s.breakpoints →
          (s.tick trace).machine = { s with cpu := c.tickTimers, halted := false } ∧
          (s.cpu.TimersNonneg → c.tickTimers =
            { c with delay := max (c.delay - 1) 0, sound := max (c.sound - 1) 0 })) ∧
        ∀ i c' cycles', 1 ≤ i → i < k → s.cpu.stepped s.budget i = .ok (c', cycles') →
          c'.pc ∉ s.breakpoints) ∧
      (∀ k c e, s.FaultsAt k c e →
        (s.tick trace).result = .error (.invalidOpcode e) ∧
        (s.tick trace).machine = { s with cpu := c })) := by
  refine ⟨fun hl => ?_, fun hl hb => ?_, fun hl hb => ?_⟩
  · rw [tick_of_not_isLive hl]
    exact ⟨rfl, rfl⟩
  · have hzero : s.budget.toNat = 0 := by omega
    rw [tick, if_pos hl, hzero, runCycles]
    exact ⟨rfl, rfl, Cpu.TimersNonneg.tickTimers_eq⟩
  · rcases tick_cases hl hb trace with ⟨k, c, cycles, hends, hr, hm⟩ | ⟨k, c, e, hfaults, hr, hm⟩
    · refine ⟨.inl ⟨k, c, cycles, hends⟩, fun k' c' cycles' h' => ?_, fun k' c' e' h' => ?_⟩
      · obtain rfl := hends.unique h'
        refine ⟨hr, hm.1, fun hpc => ⟨hm.2 hpc, fun htimers => ?_⟩, fun i c' cycles' hi hk hs => ?_⟩
        · exact (htimers.stepped hends.stepped).tickTimers_eq
        · exact h'.pc_not_mem hi hk hs
      · exact (not_faultsAt hends h').elim
    · refine ⟨.inr ⟨k, c, e, hfaults⟩, fun k' c' cycles' h' => ?_, fun k' c' e' h' => ?_⟩
      · exact (not_faultsAt h' hfaults).elim
      · obtain ⟨rfl, rfl⟩ := hfaults.unique h'
        exact ⟨hr, hm⟩

/-- A machine without a program whose timers stand at five and one makes the one step for which its
frame has cycles, and the timers tick to four and zero.  If that step leads onto a breakpoint the
machine halts there and its timers do not tick.  If its frame has no cycles they tick at once. -/
theorem tick_eq_steps_of_one_step :
    let s := { fresh .chip8 48000 0 with cpu := { Cpu.fresh .chip8 0 with delay := 5, sound := 1 } }
    let halting := s.setBreakpoint 0x202
    let idle := { s with clock := -1 }
    let c := s.cpu.advance
    (s.isLive = true ∧ 0 < s.budget ∧ s.EndsAt 1 c 8 ∧ c.pc ∉ s.breakpoints ∧
      s.cpu.TimersNonneg ∧
      (s.tick false).machine = { s with cpu := { c with delay := 4, sound := 0 } }) ∧
    (halting.EndsAt 1 c 8 ∧ c.pc ∈ halting.breakpoints ∧ c.delay = 5 ∧ c.sound = 1 ∧
      (halting.tick false).machine = { halting with cpu := c, halted := true }) ∧
    (idle.budget ≤ 0 ∧
      (idle.tick false).machine = { idle with cpu := { s.cpu with delay := 4, sound := 0 } }) := by
  intro s halting idle c
  have hword : s.cpu.word = 0 := by
    change (Memory.fresh.read 0x200).toNat * 256 + (Memory.fresh.read 0x201).toNat = 0
    rw [read_fresh ⟨by decide, by decide⟩, read_fresh ⟨by decide, by decide⟩]
    rfl
  have hdecode : Instruction.decode s.cpu.word = .ok ⟨.sys, [0]⟩ := by
    rw [hword]
    rfl
  have hfetch : s.cpu.fetch = .ok ⟨.sys, [0]⟩ := by rw [Cpu.fetch, hdecode]
  have hstep : s.cpu.stepped s.budget 1 = .ok (c, 8) := by
    rw [Cpu.stepped_succ rfl (Cpu.step_of_fetch hfetch)]
    rfl
  have htimers : s.cpu.TimersNonneg := ⟨by decide, by decide⟩
  have hpc : c.pc ∉ s.breakpoints := by decide
  have hmet : c.pc ∈ halting.breakpoints := by decide
  have hends : s.EndsAt 1 c 8 :=
    ⟨Nat.le_refl 1, hstep, .inr (.inr (by decide)), fun i _ _ hi hlt => absurd hi (by omega)⟩
  have hhalts : halting.EndsAt 1 c 8 :=
    ⟨Nat.le_refl 1, hstep, .inl hmet, fun i _ _ hi hlt => absurd hi (by omega)⟩
  obtain ⟨hm, htick⟩ :=
    (((tick_eq_steps s false).2.2 rfl (by decide)).2.1 1 c 8 hends).2.2.1 hpc
  have hhalted := (((tick_eq_steps halting false).2.2 rfl (by decide)).2.1 1 c 8 hhalts).2.1 hmet
  obtain ⟨-, hidle, hidletick⟩ := (tick_eq_steps idle false).2.1 rfl (by decide)
  rw [htick htimers] at hm
  rw [hidletick htimers] at hidle
  exact ⟨⟨rfl, by decide, hends, hpc, htimers, hm⟩, ⟨hhalts, hmet, rfl, rfl, hhalted⟩,
    by decide, hidle⟩

end Machine

end ChipEight
