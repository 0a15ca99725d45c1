/-
Saved registers.

A program can save its first registers in eight slots and restore them later.  No other instruction
reaches the slots, and neither do the timers, the keys or the breakpoints.  So whatever is run in
between, unless it saves again, the registers come back as they were saved; behind the last one that
was saved the slots still hold what they held before.

Main definitions:
* `Machine.Move`: what goes on while a program runs, down to a step of the processor alone;
* `Machine.performed`: the instructions that are executed on the way.

Main statements:
* `Machine.saved_moved`: the slots are kept by whatever does not save;
* `Cpu.register_restoreBlock_of_le`, `Cpu.register_restoreBlock_of_lt`: the registers after a block
  is restored;
* `Machine.restore_returns_saved`: what a program gets back.
-/
import ChipEight.Proofs.Blocks
import ChipEight.Proofs.Plays

namespace ChipEight

namespace Cpu

variable {c t : Cpu} {i : Instruction} {is : List Instruction} {x y : Fin 16}

/-! ## Slots and registers -/

/-- The register that a slot is for. -/
def slotRegister (k : Fin 8) : Fin 16 :=
  k.castAdd 8

/-- A slot holds its register if that was saved, and otherwise what it held before. -/
theorem saved_saveBlock (c : Cpu) (x : Fin 16) (k : Fin 8) :
    (c.saveBlock x.val).saved.get k =
      if k.val ≤ x.val then c.register (slotRegister k) else c.saved.get k := by
  show (c.saveBlock x.val).saved[k] = _
  simp only [saveBlock, Fin.getElem_fin, Vector.getElem_ofFn, Int.ofNat_le]
  rfl

/-- To restore a block changes registers only. -/
theorem restoreBlock_eq (c : Cpu) (y : Fin 16) :
    ∃ registers, c.restoreBlock y.val = { c with registers } :=
  exists_setBlock_eq c 0 _

theorem register_restoreBlock_of_le {k : Fin 8} (h : k.val ≤ y.val) :
    (c.restoreBlock y.val).register (slotRegister k) = c.saved.get k := by
  have hk : k.val < (c.saved.toList.take (y.val + 1)).length := by
    rw [List.length_take, Vector.length_toList]
    omega
  rw [restoreBlock, blockLength_val, register_setBlock hk (Nat.zero_add _).symm, List.getElem_take,
    Vector.getElem_toList]
  rfl

theorem register_restoreBlock_of_lt {k : Fin 16} (h : min y.val 7 < k.val) :
    (c.restoreBlock y.val).register k = c.register k := by
  rw [restoreBlock, blockLength_val]
  refine register_setBlock_of_le (.inr ?_)
  rw [List.length_take, Vector.length_toList]
  omega

/-! ## Runs -/

/-- An instruction that does not save keeps the slots. -/
theorem saved_perform (hi : c.fetch = .ok i) (ho : i.opcode ≠ .save) :
    (c.perform i).saved = c.saved := by
  refine Vector.ext fun k hk => ?_
  exact kept_perform (p := .slot ⟨k, hk⟩) hi fun hw => ho hw.1

/-- A run that does not save keeps the slots. -/
theorem Runs.saved_eq (h : c.Runs is t) (his : ∀ i ∈ is, i.opcode ≠ .save) :
    t.saved = c.saved := by
  induction h with
  | nil => rfl
  | cons _ hi ih =>
    obtain ⟨ho, hrest⟩ := List.forall_mem_cons.1 his
    rw [saved_perform hi ho, ih hrest]

theorem steady_saved (slots : Vector UInt8 8) : Steady fun c => c.saved = slots :=
  ⟨fun h => h, fun _ h => h, fun _ h => h⟩

end Cpu

namespace Machine

/-! ## Moves -/

/-- What goes on while a program runs. -/
inductive Move
  /-- The processor makes a step, and its cycles are not counted. -/
  | step
  /-- The timers tick. -/
  | timers
  /-- The program is played. -/
  | play (o : Operation) (isPlay : o.isPlay = true)

/-- The machine after a move; a step that fails changes nothing. -/
def move (trace : Bool) (s : Machine) : Move → Machine
  | .step => (s.stepCpu trace).machine
  | .timers => { s with cpu := s.cpu.tickTimers }
  | .play o _ => s.apply trace o

/-- The machine after some moves, the first of them first. -/
def moved (trace : Bool) (s : Machine) (moves : List Move) : Machine :=
  moves.foldl (move trace) s

/-- What a machine that is traced reports of a move. -/
def reportsOfMove (s : Machine) : Move → List Event
  | .step => (s.stepCpu true).journal
  | .timers => []
  | .play o _ => s.reportsOf o

/-- The instructions that are executed in some moves, the latest first. -/
def performed (s : Machine) : List Move → List Instruction
  | [] => []
  | m :: moves => (s.move true m).performed moves ++ executions (s.reportsOfMove m)

variable {s : Machine} {trace : Bool} {m : Move} {moves : List Move}

theorem moved_cons : s.moved trace (m :: moves) = (s.move trace m).moved trace moves := rfl

theorem performed_cons : s.performed (m :: moves) =
    (s.move true m).performed moves ++ executions (s.reportsOfMove m) := rfl

theorem move_trace (s : Machine) (trace : Bool) (m : Move) : s.move trace m = s.move true m := by
  cases m with
  | step =>
    show (s.stepCpu trace).machine = (s.stepCpu true).machine
    rw [stepCpu, stepCpu]
    cases s.cpu.fetch <;> rfl
  | timers => rfl
  | play o ho => exact apply_trace ho trace

/-- A step of the processor alone makes the run that it reports. -/
theorem runs_stepCpu (s : Machine) :
    s.cpu.Runs (executions (s.stepCpu true).journal) (s.stepCpu true).machine.cpu := by
  cases hi : s.cpu.fetch with
  | error e =>
    rw [stepCpu, hi]
    exact .nil
  | ok i =>
    have hreport : executions (s.cpu.stepNotices true i) = [i] := by
      simpa [executions] using executions_stepNotices s.cpu i []
    rw [stepCpu, hi]
    dsimp only
    rw [hreport]
    exact .cons .nil hi

/-- A move that does not save keeps the slots. -/
theorem saved_move (h : ∀ i ∈ executions (s.reportsOfMove m), i.opcode ≠ .save) :
    (s.move true m).cpu.saved = s.cpu.saved := by
  cases m with
  | step => exact s.runs_stepCpu.saved_eq h
  | timers => rfl
  | play o ho =>
    cases o with
    | tick =>
      obtain ⟨c, hrun, hticked⟩ := s.runs_tick
      exact (Cpu.steady_saved _).of_ticked hticked (hrun.saved_eq h)
    | step =>
      obtain ⟨c, hrun, hticked⟩ := s.runs_stepInstruction
      exact (Cpu.steady_saved _).of_ticked hticked (hrun.saved_eq h)
    | resume | setBreakpoint | removeBreakpoint | keyDown | keyUp => rfl
    | load | reset | line => cases ho

/-- Moves that do not save keep the slots. -/
theorem saved_moved (h : ∀ i ∈ s.performed moves, i.opcode ≠ .save) (trace : Bool) :
    (s.moved trace moves).cpu.saved = s.cpu.saved := by
  induction moves generalizing s with
  | nil => rfl
  | cons m moves ih =>
    obtain ⟨hrest, hfirst⟩ := List.forall_mem_append.1 h
    rw [moved_cons, move_trace, ih hrest, saved_move hfirst]

/-! ## Saving and restoring -/

/-- Registers that were saved are restored, whatever was run in between, unless it has saved again.
Where more registers are restored than were saved, the others get what the slots held before.  The
registers behind the block, the memory and the index register are left alone; indeed nothing but
registers changes when the program moves on. -/
theorem restore_returns_saved (s : Machine) (trace : Bool) (x y : Fin 16) (moves : List Move)
    (h : ∀ i ∈ { s with cpu := s.cpu.perform ⟨.save, [(x : Nat)]⟩ }.performed moves,
      i.opcode ≠ .save) :
    let saved := { s with cpu := s.cpu.perform ⟨.save, [(x : Nat)]⟩ }
    let c := (saved.moved trace moves).cpu
    let restored := c.perform ⟨.restore, [(y : Nat)]⟩
    (∀ k : Fin 16, k.val ≤ min (min x.val y.val) 7 → restored.register k = s.cpu.register k) ∧
    (∀ k : Fin 8, x.val < k.val → k.val ≤ y.val →
      restored.register (Cpu.slotRegister k) = s.cpu.saved.get k) ∧
    (∀ k : Fin 16, min y.val 7 < k.val → restored.register k = c.register k) ∧
    restored.memory = c.memory ∧ restored.index = c.index ∧
    ∃ registers, restored = { c.advance with registers } := by
  intro saved c restored
  have hslots : c.saved = (s.cpu.advance.saveBlock x.val).saved := saved_moved h trace
  have hrestored : restored = c.advance.restoreBlock y.val := rfl
  have hslot (k : Fin 8) (hk : k.val ≤ y.val) :
      restored.register (Cpu.slotRegister k) =
        if k.val ≤ x.val then s.cpu.register (Cpu.slotRegister k) else s.cpu.saved.get k := by
    calc restored.register (Cpu.slotRegister k) = c.saved.get k :=
          Cpu.register_restoreBlock_of_le hk
      _ = (s.cpu.advance.saveBlock x.val).saved.get k := by rw [hslots]
      _ = _ := Cpu.saved_saveBlock s.cpu.advance x k
  obtain ⟨registers, hregisters⟩ := c.advance.restoreBlock_eq y
  refine ⟨fun k hk => ?_, fun k hx hy => ?_, fun k hk => Cpu.register_restoreBlock_of_lt hk, ?_, ?_,
    registers, hregisters⟩
  · have hk' := hslot ⟨k.val, by omega⟩ (by dsimp only; omega)
    rwa [if_pos (by dsimp only; omega)] at hk'
  · rw [hslot k hy, if_neg (by omega)]
  · rw [hrestored, hregisters]
    rfl
  · rw [hrestored, hregisters]
    rfl

/-- One register is saved, two are set anew by a step alone and by a frame, and two are restored:
the first is as it was saved, and the second gets what its slot held before. -/
theorem restore_returns_saved_of_two_loads :
    let base := { fresh .chip8 48000 0 with
      program := [0xF0, 0x75, 0x60, 0x09, 0x61, 0x05] }.reset none
    let s := { base with cpu := base.cpu.setRegister 0 7 }
    let saved := { s with cpu := s.cpu.perform ⟨.save, [((0 : Fin 16) : Nat)]⟩ }
    let moves : List Move := [.step, .timers, .play .tick rfl, .play (.keyDown 3) rfl]
    let restored := (saved.moved false moves).cpu.perform ⟨.restore, [((1 : Fin 16) : Nat)]⟩
    (∀ i ∈ saved.performed moves, i.opcode ≠ .save) ∧
      restored.register 0 = 7 ∧ restored.register 1 = 0 := by
  intro base s saved moves restored
  let first : Instruction := ⟨.ldByte, [0, 9]⟩
  let second : Instruction := ⟨.ldByte, [1, 5]⟩
  have hfetch {k : Nat} {c : Cpu} {i : Instruction} (hm : c.memory = base.cpu.memory) :=
    fetch_of_program (k := k) (i := i) [0xF0, 0x75, 0x60, 0x09, 0x61, 0x05] hm rfl (by decide)
  have hfirst : saved.cpu.fetch = .ok first := hfetch (k := 2) rfl rfl (by decide) rfl
  let s₁ := { saved with cpu := saved.cpu.perform first }
  have hstep : saved.stepCpu true = ⟨s₁, saved.cpu.stepNotices true first, .ok 8⟩ := by
    rw [stepCpu, hfirst]
    rfl
  let s₂ := { s₁ with cpu := s₁.cpu.tickTimers }
  have hsecond : s₂.cpu.fetch = .ok second := hfetch (k := 4) rfl rfl (by decide) rfl
  have htick : s₂.tick true = _ := tick_of_complete rfl <| by
    rw [runCycles_of_fetch (by decide) rfl hsecond (by decide)]
    exact runCycles_zero
  have hperformed : saved.performed moves = [second, first] := by
    have hmoved : saved.move true .step = s₁ := congrArg Outcome.machine hstep
    have hreports : saved.reportsOfMove .step = saved.cpu.stepNotices true first :=
      congrArg Outcome.journal hstep
    have hreports' : s₂.reportsOfMove (.play .tick rfl) = _ := congrArg Outcome.journal htick
    rw [performed_cons, hmoved, hreports, performed_cons]
    show ((s₂.performed _) ++ []) ++ _ = _
    rw [performed_cons, hreports']
    rfl
  have hsaves : ∀ i ∈ saved.performed moves, i.opcode ≠ .save := by
    rw [hperformed]
    decide
  obtain ⟨hreturned, hslot, -⟩ := restore_returns_saved s false 0 1 moves hsaves
  have hseven : s.cpu.register 0 = 7 := (Cpu.register_setRegister _ 0 0 7).trans (if_pos rfl)
  refine ⟨hsaves, (hreturned 0 (by decide)).trans hseven, hslot 1 (by decide) (by decide)⟩

end Machine

end ChipEight
