/-
Waiting for a key.

An instruction that asks for a key is executed again and again until one is held: the program
counter goes back to it, and nothing else happens to the processor.  So the frames of a machine that
waits only let the timers tick, however many instructions they have cycles for.

Main definitions:
* `Cpu.Waits`: the processor asks for a key, and none is held;
* `Cpu.afterTicks`: the processor after its timers have ticked some times.

Main statements:
* `Cpu.Waits.perform_eq`: to wait changes nothing;
* `Cpu.exists_perform_ldKey_eq`: the lowest of the keys that are held ends the waiting;
* `Machine.tick_of_waits`, `Machine.ticks_of_waits`: the frames of a machine that waits;
* `Machine.key_awaited`: both together, for a machine in order.
-/
import ChipEight.Proofs.Frames
import ChipEight.Proofs.Loops
import ChipEight.Proofs.WellFormed

namespace ChipEight

namespace Cpu

variable {c : Cpu} {x : Fin 16}

/-! ## The keys that are held -/

theorem heldKeys_eq_nil (h : ∀ k, c.isHeld k = false) : c.heldKeys = [] := by
  rw [heldKeys, List.filter_eq_nil_iff]
  intro k _
  rw [h k]
  exact Bool.false_ne_true

/-- The first of the keys that are held is the lowest. -/
theorem exists_heldKeys_eq_cons (h : ∃ k, c.isHeld k = true) :
    ∃ k l, c.heldKeys = k :: l ∧ c.isHeld k = true ∧ ∀ j < k, c.isHeld j = false := by
  have hmem (k : Fin 16) : k ∈ c.heldKeys ↔ c.isHeld k = true := by
    rw [heldKeys, List.mem_filter]
    exact and_iff_right (List.mem_finRange k)
  have hsorted : c.heldKeys.Pairwise (· < ·) := (List.pairwise_lt_finRange 16).filter _
  cases hkeys : c.heldKeys with
  | nil =>
    obtain ⟨k, hk⟩ := h
    rw [← hmem, hkeys] at hk
    cases hk
  | cons k l =>
    rw [hkeys] at hsorted
    have hk : k ∈ c.heldKeys := by
      rw [hkeys]
      exact List.mem_cons_self
    refine ⟨k, l, rfl, (hmem k).1 hk, fun j hj => Bool.eq_false_of_not_eq_true fun hheld => ?_⟩
    rw [← hmem, hkeys] at hheld
    rcases List.mem_cons.1 hheld with rfl | hl
    · exact Nat.lt_irrefl j hj
    · exact Nat.lt_asymm hj (List.rel_of_pairwise_cons hsorted hl)

/-! ## The instruction -/

theorem perform_ldKey (c : Cpu) (x : Fin 16) :
    c.perform ⟨.ldKey, [(x : Nat)]⟩ = c.advance.awaitKey x := by
  let ask : Instruction := ⟨.ldKey, [(x : Nat)]⟩
  have hx : ask.register .x = x := Instruction.register_of_operand rfl
  show c.advance.awaitKey (ask.register .x) = _
  rw [hx]

/-- The lowest of the keys that are held gets into the register. -/
theorem exists_perform_ldKey_eq (h : ∃ k, c.isHeld k = true) :
    ∃ k, c.isHeld k = true ∧ (∀ j < k, c.isHeld j = false) ∧
      c.perform ⟨.ldKey, [(x : Nat)]⟩ = c.advance.setRegister x (UInt8.ofNat k) := by
  obtain ⟨k, l, hkeys, hk, hlowest⟩ := exists_heldKeys_eq_cons h
  have hadvance : c.advance.heldKeys = k :: l := hkeys
  refine ⟨k, hk, hlowest, ?_⟩
  rw [perform_ldKey, awaitKey, hadvance]

/-- The processor asks for a key, and none is held. -/
structure Waits (c : Cpu) (x : Fin 16) : Prop where
  pc : IsAddress c.pc
  fetch : c.fetch = .ok ⟨.ldKey, [(x : Nat)]⟩
  released : ∀ k, c.isHeld k = false

namespace Waits

variable (h : c.Waits x)
include h

/-- To wait changes nothing: the program counter moves on and back again. -/
theorem perform_eq : c.perform ⟨.ldKey, [(x : Nat)]⟩ = c := by
  have hkeys : c.advance.heldKeys = [] := heldKeys_eq_nil h.released
  have hback : address16 (address16 (c.pc + 2) - 2) = c.pc := by
    obtain ⟨hlow, hhigh⟩ := h.pc
    rw [address16, address16]
    omega
  rw [perform_ldKey, awaitKey, hkeys]
  show { c with pc := address16 (address16 (c.pc + 2) - 2) } = c
  rw [hback]

theorem step_eq : c.step = .ok (.instruction, c) := by
  rw [step_of_fetch h.fetch, h.perform_eq]
  rfl

theorem iterate_eq (n : Nat) : c.iterate n = .ok c := by
  induction n with
  | zero => rfl
  | succ n ih => rw [iterate_succ_of_fetch ih h.fetch, h.perform_eq]

/-- Steps of a frame that waits lead nowhere. -/
theorem eq_of_stepped {s : Cpu} {budget cycles : Int} {k : Nat}
    (hk : c.stepped budget k = .ok (s, cycles)) : s = c := by
  have hstays : ∃ n, c.stepped budget k = .ok (c, n) := by
    clear hk
    induction k with
    | zero => exact ⟨0, rfl⟩
    | succ k ih =>
      obtain ⟨n, hn⟩ := ih
      exact ⟨_, stepped_succ hn h.step_eq⟩
  obtain ⟨n, hn⟩ := hstays
  rw [hn] at hk
  cases hk
  rfl

theorem tickTimers : c.tickTimers.Waits x :=
  ⟨h.pc, h.fetch, h.released⟩

end Waits

/-! ## The timers -/

/-- The processor after both timers have ticked `m` times. -/
def afterTicks (m : Nat) (c : Cpu) : Cpu :=
  { c with delay := max (c.delay - m) 0, sound := max (c.sound - m) 0 }

theorem afterTicks_zero (h : c.TimersNonneg) : c.afterTicks 0 = c := by
  rw [afterTicks, Int.natCast_zero, Int.sub_zero, Int.sub_zero, Int.max_eq_left h.delay,
    Int.max_eq_left h.sound]

theorem afterTicks_succ (h : c.TimersNonneg) (m : Nat) :
    c.afterTicks (m + 1) = c.tickTimers.afterTicks m := by
  have hmax (t : Int) : max (t - (m + 1 : Nat)) 0 = max (max (t - 1) 0 - m) 0 := by omega
  rw [h.tickTimers_eq, afterTicks, afterTicks, hmax, hmax]

end Cpu

namespace Machine

variable {s : Machine} {x : Fin 16}

/-! ## Frames -/

/-- A frame that waits is over at once at a breakpoint, and at the end of its cycles otherwise. -/
theorem tick_of_waits (h : s.cpu.Waits x) (hl : s.isLive = true) (hb : 0 < s.budget)
    (trace : Bool) :
    (s.tick trace).result = .ok () ∧
      (s.cpu.pc ∈ s.breakpoints → (s.tick trace).machine = { s with halted := true }) ∧
      (s.cpu.pc ∉ s.breakpoints →
        (s.tick trace).machine = { s with cpu := s.cpu.tickTimers }) := by
  rcases tick_cases hl hb trace with ⟨k, c, n, hends, hr, hpc, hnpc⟩ | ⟨k, c, e, hfaults, -⟩
  · obtain rfl := h.eq_of_stepped hends.stepped
    refine ⟨hr, hpc, fun hmem => ?_⟩
    rw [hnpc hmem, ← (isLive_iff.1 hl).2]
  · obtain ⟨n, hk⟩ := hfaults.stepped
    have hstep := hfaults.fails
    rw [h.eq_of_stepped hk, h.step_eq] at hstep
    cases hstep

/-- A frame without cycles only lets the timers tick. -/
theorem tick_of_budget_nonpos (hl : s.isLive = true) (hb : s.budget ≤ 0) (trace : Bool) :
    s.tick trace = ⟨{ s with cpu := s.cpu.tickTimers }, [], .ok ()⟩ := by
  refine tick_of_complete hl ?_
  rw [Int.toNat_of_nonpos hb]
  exact runCycles_zero

/-- Frames that wait only let the timers tick, if they have cycles or not. -/
theorem ticks_of_waits (h : s.cpu.Waits x) (hl : s.isLive = true)
    (hpc : s.cpu.pc ∉ s.breakpoints) (hc : s.cpu.InRange) (trace : Bool) (m : Nat) :
    (s.ticks trace m).result = .ok () ∧
      (s.ticks trace m).machine = { s with cpu := s.cpu.afterTicks m } := by
  induction m generalizing s with
  | zero =>
    rw [Cpu.afterTicks_zero hc.timersNonneg]
    exact ⟨rfl, rfl⟩
  | succ m ih =>
    have htick : (s.tick trace).result = .ok () ∧
        (s.tick trace).machine = { s with cpu := s.cpu.tickTimers } := by
      rcases Int.lt_or_le 0 s.budget with hb | hb
      · obtain ⟨hr, -, hm⟩ := tick_of_waits h hl hb trace
        exact ⟨hr, hm hpc⟩
      · rw [tick_of_budget_nonpos hl hb]
        exact ⟨rfl, rfl⟩
    obtain ⟨hr, hm⟩ := htick
    rw [ticks_succ_of_ok hr, hm, Cpu.afterTicks_succ hc.timersNonneg]
    exact ih (s := { s with cpu := s.cpu.tickTimers }) h.tickTimers hl hpc hc.tickTimers

/-- A machine that asks for a key while none is held stays as it is but for its timers, whatever
its clock is, and its processor stays as it is.  When keys are held at last, the next step puts the
lowest of them into the register and moves on, and does nothing else.  If the instruction stands at
a breakpoint, the first frame with cycles halts the machine there. -/
theorem key_awaited (s : Machine) (trace : Bool) (x : Fin 16) (hs : s.WellFormed)
    (hl : s.isLive = true) (hi : s.cpu.fetch = .ok ⟨.ldKey, [(x : Nat)]⟩)
    (hk : ∀ k, s.cpu.isHeld k = false) :
    (s.cpu.pc ∉ s.breakpoints → ∀ m, (s.ticks trace m).result = .ok () ∧
      (s.ticks trace m).machine = { s with cpu := s.cpu.afterTicks m }) ∧
    (∀ n, s.cpu.iterate n = .ok s.cpu) ∧
    (∀ (m : Nat) (keys : Vector Bool 16),
      let c := { s.cpu.afterTicks m with keys }
      (∃ k, c.isHeld k = true) → ∃ k, c.isHeld k = true ∧ (∀ j < k, c.isHeld j = false) ∧
        c.step =
          .ok (.instruction, { c with pc := (c.pc + 2) % 65536 }.setRegister x (UInt8.ofNat k))) ∧
    (s.cpu.pc ∈ s.breakpoints → 0 < s.budget →
      (s.tick trace).result = .ok () ∧ (s.tick trace).machine = { s with halted := true }) := by
  have hc : s.cpu.InRange := (wellFormed_iff.1 hs).cpu
  have hwaits : s.cpu.Waits x := ⟨hc.pc, hi, hk⟩
  refine ⟨fun hpc m => ?_, hwaits.iterate_eq, fun m keys => ?_, fun hpc hb => ?_⟩
  · exact ticks_of_waits hwaits hl hpc hc trace m
  · intro c hheld
    have hfetch : c.fetch = .ok ⟨.ldKey, [(x : Nat)]⟩ := hi
    obtain ⟨k, hk, hlowest, hperform⟩ := Cpu.exists_perform_ldKey_eq (x := x) hheld
    refine ⟨k, hk, hlowest, ?_⟩
    rw [Cpu.step_of_fetch hfetch, hperform]
    rfl
  · obtain ⟨hr, hhalts, -⟩ := tick_of_waits hwaits hl hb trace
    exact ⟨hr, hhalts hpc⟩

/-! ## A processor that waits at the end of the addresses -/

/-- A machine whose next instruction asks for a key, behind which the program counter turns round,
with the delay timer at five and the sound timer at one. -/
def asking : Machine :=
  let s := fresh .chip8 54000 0
  let memory := (Memory.fresh.write 0xFFE 0xF3).write 0xFFF 0x0A
  { s with cpu := { s.cpu with memory, pc := 0xFFFE, delay := 5, sound := 1 } }

/-- It waits for three frames, of two instructions each, and then takes the lower of two keys; with
a breakpoint at the instruction it halts there. -/
theorem key_awaited_at_last_address :
    let s := asking
    let halting := s.setBreakpoint 0xFFFE
    let c := { s.cpu with delay := 2, sound := 0 }
    let pressed := (c.keyDown 12).keyDown 9
    (s.WellFormed ∧ s.isLive = true ∧ s.cpu.fetch = .ok ⟨.ldKey, [((3 : Fin 16) : Nat)]⟩ ∧
      ∀ k, s.cpu.isHeld k = false) ∧
    (s.ticks true 3).machine = { s with cpu := c } ∧
    s.cpu.iterate 7 = .ok s.cpu ∧
    pressed.step = .ok (.instruction, { pressed with pc := 0 }.setRegister 3 9) ∧
    (halting.WellFormed ∧ halting.cpu.pc ∈ halting.breakpoints ∧ 0 < halting.budget ∧
      (halting.tick true).machine = { halting with halted := true }) := by
  intro s halting c pressed
  have hrange : s.InRange := by
    refine ⟨⟨?_, ?_, ?_, ?_, fun _ ha => absurd ha List.not_mem_nil⟩,
      fun _ ha => absurd ha List.not_mem_nil⟩ <;> exact ⟨by decide, by decide⟩
  have hs : s.WellFormed := wellFormed_iff.2 hrange
  have hhalting : halting.WellFormed :=
    wellFormed_iff.2 (invariant_inRange.setBreakpoint 0xFFFE hrange)
  have hword : s.cpu.word = 0xF30A := by
    have hmemory : s.cpu.memory = (Memory.fresh.write 0xFFE 0xF3).write 0xFFF 0x0A := rfl
    have hhigh : s.cpu.memory.read 0xFFFE = 0xF3 := by
      rw [hmemory, Memory.read_write, if_neg (by decide), Memory.read_write, if_pos (by decide)]
    have hlow : s.cpu.memory.read (0xFFFE + 1) = 0x0A := by
      rw [hmemory, Memory.read_write, if_pos (by decide)]
    show (s.cpu.memory.read 0xFFFE).toNat * 256 + (s.cpu.memory.read (0xFFFE + 1)).toNat = _
    rw [hhigh, hlow]
    rfl
  have hi : s.cpu.fetch = .ok ⟨.ldKey, [((3 : Fin 16) : Nat)]⟩ := by
    rw [Cpu.fetch, hword]
    rfl
  have hk : ∀ k, s.cpu.isHeld k = false := by decide
  obtain ⟨hframes, hsteps, hpress, -⟩ := key_awaited s true 3 hs rfl hi hk
  obtain ⟨-, -, -, hhalts⟩ := key_awaited halting true 3 hhalting rfl hi hk
  obtain ⟨k, hheld, hlowest, hstep⟩ := hpress 3 pressed.keys ⟨9, by decide⟩
  have hnine : ∀ k, pressed.isHeld k = true → (∀ j < k, pressed.isHeld j = false) → k = 9 := by
    decide
  obtain rfl := hnine k hheld hlowest
  refine ⟨⟨hs, rfl, hi, hk⟩, (hframes (by decide) 3).2, hsteps 7, hstep, hhalting, by decide,
    by decide, (hhalts (by decide) (by decide)).2⟩

end Machine

end ChipEight
