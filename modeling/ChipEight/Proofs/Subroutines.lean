/-
Subroutines.

A call puts the address behind it on the stack, and only calls and returns touch the stack: a call
adds one address, a return takes the latest away.  So what lies on the stack stays there until the
stack becomes shallower than it, and the return that ends a call finds the address of that call,
whatever was done in between.

Main definitions:
* `Cpu.StaysDeeper`: the stack is deeper than at first after each of some steps.

Main statements:
* `Cpu.suffix_stack_perform`, `Cpu.suffix_stack_of_iterate`: what lies on the stack stays there;
* `Cpu.calls_nest`: a return goes behind its call, and leaves the stack of the caller.
-/
import ChipEight.Proofs.Footprints

namespace ChipEight.Cpu

variable {c t t' : Cpu} {i r : Instruction} {n : Nat} {base : List Int}

/-! ## Calls and returns -/

theorem perform_call (ho : i.opcode = .call) :
    (c.perform i).pc = i.nnn ∧ (c.perform i).stack = (c.pc + 2) % 65536 :: c.stack := by
  rw [perform, execute, ho]
  exact ⟨rfl, rfl⟩

theorem perform_ret (ho : i.opcode = .ret) :
    (c.perform i).pc = c.stack.head?.getD 0 ∧ (c.perform i).stack = c.stack.tail := by
  rw [perform, execute, ho]
  exact ⟨rfl, rfl⟩

/-- Only calls and returns touch the stack. -/
theorem stack_perform (hi : c.fetch = .ok i) (hcall : i.opcode ≠ .call) (hret : i.opcode ≠ .ret) :
    (c.perform i).stack = c.stack := by
  have hw : ¬c.Writes i .stack := by simp [Writes, hcall, hret]
  exact kept_perform hi hw

/-! ## What lies on the stack -/

/-- An instruction leaves what lies on the stack, unless the stack becomes shallower than it. -/
theorem suffix_stack_perform (hi : c.fetch = .ok i) (h : base <:+ c.stack)
    (hdeep : base.length ≤ (c.perform i).stack.length) : base <:+ (c.perform i).stack := by
  by_cases hcall : i.opcode = .call
  · rw [(perform_call hcall).2]
    exact h.trans (List.suffix_cons _ _)
  by_cases hret : i.opcode = .ret
  · rw [(perform_ret hret).2] at hdeep ⊢
    cases hs : c.stack with
    | nil =>
      rw [hs] at h
      exact h
    | cons a s =>
      rw [hs] at h hdeep
      rcases List.suffix_cons_iff.1 h with rfl | hsuffix
      · rw [List.tail_cons, List.length_cons] at hdeep
        omega
      · exact hsuffix
  · rw [stack_perform hi hcall hret]
    exact h

/-- A run leaves what lies on the stack, unless the stack becomes shallower than it. -/
theorem suffix_stack_of_iterate (h : base <:+ c.stack) (hn : c.iterate n = .ok t)
    (hdeep : ∀ m ≤ n, ∀ u, c.iterate m = .ok u → base.length ≤ u.stack.length) :
    base <:+ t.stack := by
  induction n generalizing t with
  | zero =>
    cases hn
    exact h
  | succ n ih =>
    obtain ⟨s, i, hs, hi, rfl⟩ := exists_of_iterate_succ hn
    have hsuffix := ih hs fun m hm => hdeep m (by omega)
    exact suffix_stack_perform hi hsuffix (hdeep (n + 1) (Nat.le_refl _) _ hn)

/-! ## From a call to its return -/

/-- The first of some steps, and then the others. -/
theorem iterate_succ_of_first (hi : c.fetch = .ok i) (n : Nat) :
    c.iterate (n + 1) = (c.perform i).iterate n := by
  induction n with
  | zero => exact iterate_succ_of_fetch (n := 0) rfl hi
  | succ n ih => rw [iterate, ih, ← iterate]

/-- The stack is deeper than at first after each of the first `n` steps. -/
def StaysDeeper (c : Cpu) (n : Nat) : Prop :=
  ∀ m u, 1 ≤ m → m ≤ n → c.iterate m = .ok u → c.stack.length < u.stack.length

/-- As long as a call has not returned, the address behind it lies upon the stack of the caller. -/
theorem suffix_stack_of_call (hi : c.fetch = .ok i) (ho : i.opcode = .call) (hn : 1 ≤ n)
    (ht : c.iterate n = .ok t) (hdeep : c.StaysDeeper n) :
    (c.pc + 2) % 65536 :: c.stack <:+ t.stack := by
  obtain ⟨n, rfl⟩ : ∃ l, n = l + 1 := ⟨n - 1, by omega⟩
  have hpushed := (perform_call (c := c) ho).2
  rw [iterate_succ_of_first hi] at ht
  refine suffix_stack_of_iterate (hpushed ▸ List.suffix_rfl) ht fun m hm u hu => ?_
  rw [← iterate_succ_of_first hi] at hu
  exact hdeep (m + 1) u (by omega) (by omega) hu

/-- A step after which the stack is first as shallow as some depth is a return. -/
theorem ret_of_shallow (hi : t.fetch = .ok r) (hbefore : n < t.stack.length)
    (hafter : (t.perform r).stack.length ≤ n) : r.opcode = .ret ∧ t.stack.length = n + 1 := by
  by_cases hret : r.opcode = .ret
  · rw [(perform_ret hret).2, List.length_tail] at hafter
    exact ⟨hret, by omega⟩
  · exfalso
    by_cases hcall : r.opcode = .call
    · rw [(perform_call hcall).2, List.length_cons] at hafter
      omega
    · rw [stack_perform hi hcall hret] at hafter
      omega

/-- The return that takes away the address that a call has pushed goes there. -/
theorem perform_ret_of_call (hi : c.fetch = .ok i) (ho : i.opcode = .call) (hn : 1 ≤ n)
    (ht : c.iterate n = .ok t) (hdeep : c.StaysDeeper n) (hr : r.opcode = .ret)
    (hlast : t.stack.length = c.stack.length + 1) :
    (t.perform r).pc = (c.pc + 2) % 65536 ∧ (t.perform r).stack = c.stack := by
  have hsuffix := suffix_stack_of_call hi ho hn ht hdeep
  have hstack : (c.pc + 2) % 65536 :: c.stack = t.stack :=
    hsuffix.eq_of_length (by rw [hlast, List.length_cons])
  obtain ⟨hpc, htail⟩ := perform_ret (c := t) hr
  rw [hpc, htail, ← hstack]
  exact ⟨rfl, rfl⟩

/-! ## Calls nest -/

/-- As long as the stack stays deeper than it was before a call, the address behind the call lies
upon what lay there before; a return that is executed at one more than that depth goes behind the
call and leaves the stack as it was, and the stack becomes as shallow as it was in no other way.  A
return for which there is no call goes to the address zero. -/
theorem calls_nest :
    (∀ (c t : Cpu) (i r : Instruction) (n : Nat), c.fetch = .ok i → i.opcode = .call → 1 ≤ n →
      c.iterate n = .ok t → c.StaysDeeper n → t.fetch = .ok r →
      ((c.pc + 2) % 65536 :: c.stack) <:+ t.stack ∧
      (r.opcode = .ret → t.stack.length = c.stack.length + 1 →
        ∃ cost t', t.step = .ok (cost, t') ∧ t'.pc = (c.pc + 2) % 65536 ∧ t'.stack = c.stack) ∧
      (∀ cost t', t.step = .ok (cost, t') → t'.stack.length ≤ c.stack.length →
        r.opcode = .ret ∧ t.stack.length = c.stack.length + 1)) ∧
    ∀ (t : Cpu) (r : Instruction), t.fetch = .ok r → r.opcode = .ret → t.stack = [] →
      ∃ cost t', t.step = .ok (cost, t') ∧ t'.pc = 0 ∧ t'.stack = [] := by
  refine ⟨fun c t i r n hi ho hn ht hdeep hr => ⟨?_, fun hret hlast => ?_, ?_⟩,
    fun t r hr hret hempty => ?_⟩
  · exact suffix_stack_of_call hi ho hn ht hdeep
  · exact ⟨_, _, step_of_fetch hr, perform_ret_of_call hi ho hn ht hdeep hret hlast⟩
  · intro cost t' hstep hshallow
    rw [step_of_fetch hr] at hstep
    cases hstep
    exact ret_of_shallow hr (hdeep n t hn (Nat.le_refl n) ht) hshallow
  · obtain ⟨hpc, hstack⟩ := perform_ret (c := t) hret
    rw [hempty] at hpc hstack
    exact ⟨_, _, step_of_fetch hr, hpc, hstack⟩

/-- A program that calls a subroutine, which calls another one, and then returns once too often. -/
def nestedCalls : Image :=
  [0x22, 0x04, 0x00, 0xEE, 0x22, 0x08, 0x00, 0xEE, 0x00, 0xEE]

/-- The return of the outer of two subroutines, and the one that has no call. -/
theorem calls_nest_twice :
    let c := ({ Machine.fresh .chip8 0 0 with program := nestedCalls }.reset none).cpu
    let ret : Instruction := ⟨.ret, []⟩
    let t := ((c.perform ⟨.call, [0x204]⟩).perform ⟨.call, [0x208]⟩).perform ret
    let back := t.perform ret
    c.fetch = .ok ⟨.call, [0x204]⟩ ∧ c.iterate 3 = .ok t ∧ c.StaysDeeper 3 ∧ t.fetch = .ok ret ∧
      t.stack.length = c.stack.length + 1 ∧
      (∃ cost t', t.step = .ok (cost, t') ∧ t'.pc = (c.pc + 2) % 65536 ∧ t'.stack = c.stack) ∧
      back.fetch = .ok ret ∧ back.stack = [] ∧
      ∃ cost t', back.step = .ok (cost, t') ∧ t'.pc = 0 ∧ t'.stack = [] := by
  intro c ret t back
  let c₁ := c.perform ⟨.call, [0x204]⟩
  let c₂ := c₁.perform ⟨.call, [0x208]⟩
  have hfetch : ∀ (s : Cpu) (k : Nat) (i : Instruction), s.memory = c.memory →
      k + 1 < Memory.programLimit → s.pc = Memory.programStart + k →
      Instruction.decode
        ((nestedCalls.getD k 0).toNat * 256 + (nestedCalls.getD (k + 1) 0).toNat : Nat) = .ok i →
      s.fetch = .ok i :=
    fun s k i hm hk hpc hi => Machine.fetch_of_program nestedCalls hm rfl (by decide) hpc hk hi
  have hcall : c.fetch = .ok ⟨.call, [0x204]⟩ := hfetch c 0 _ rfl (by decide) rfl rfl
  have hinner : c₁.fetch = .ok ⟨.call, [0x208]⟩ := hfetch c₁ 4 _ rfl (by decide) rfl rfl
  have hfirst : c₂.fetch = .ok ret := hfetch c₂ 8 _ rfl (by decide) rfl rfl
  have hsecond : t.fetch = .ok ret := hfetch t 6 _ rfl (by decide) rfl rfl
  have hthird : back.fetch = .ok ret := hfetch back 2 _ rfl (by decide) rfl rfl
  have hone : c.iterate 1 = .ok c₁ := iterate_succ_of_fetch (n := 0) rfl hcall
  have htwo : c.iterate 2 = .ok c₂ := iterate_succ_of_fetch hone hinner
  have hthree : c.iterate 3 = .ok t := iterate_succ_of_fetch htwo hfirst
  have hdeep : c.StaysDeeper 3 := by
    intro m u hm hmost hu
    obtain rfl | rfl | rfl : m = 1 ∨ m = 2 ∨ m = 3 := by omega
    · rw [hone] at hu
      cases hu
      decide
    · rw [htwo] at hu
      cases hu
      decide
    · rw [hthree] at hu
      cases hu
      decide
  obtain ⟨hnest, hempty⟩ := calls_nest
  obtain ⟨-, hreturns, -⟩ := hnest c t _ ret 3 hcall rfl (by decide) hthree hdeep hsecond
  exact ⟨hcall, hthree, hdeep, hsecond, rfl, hreturns rfl rfl, hthird, rfl,
    hempty back ret hthird rfl rfl⟩

end ChipEight.Cpu
