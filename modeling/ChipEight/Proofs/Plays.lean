/-
Playing a program: frames, single steps, breakpoints and keys.

While a program is played, nothing is written into the machine from outside.  Apart from the timers
and the keys, what its processor holds is the work of the instructions that are executed.

Main definitions:
* `Machine.Executes`: a processor executes an instruction while a history is played;
* `Machine.Unplayed`: the machine has just been made or reset.

Main statements:
* `Cpu.Steady.after`: what the instructions keep that are executed, playing keeps.
-/
import ChipEight.Proofs.Ranges
import ChipEight.Proofs.Schedules

namespace ChipEight

/-! ## Properties without timers and keys -/

namespace Cpu

/-- The property survives ticks of the timers and changes of the keys. -/
structure Steady (P : Cpu → Prop) : Prop where
  tickTimers : ∀ {c : Cpu}, P c → P c.tickTimers
  keyDown : ∀ {c : Cpu} (k : Int), P c → P (c.keyDown k)
  keyUp : ∀ {c : Cpu} (k : Int), P c → P (c.keyUp k)

variable {P : Cpu → Prop} {c c' t : Cpu} {is : List Instruction}

theorem Steady.of_ticked (hP : Steady P) (h : c' = c ∨ c' = c.tickTimers) (hc : P c) : P c' := by
  rcases h with rfl | rfl
  · exact hc
  · exact hP.tickTimers hc

/-- What every instruction of a run keeps, the run keeps. -/
theorem Runs.keeps (h : c.Runs is t) (hc : P c)
    (hkeep : ∀ k < is.length, ∀ u i, c.iterate k = .ok u → u.fetch = .ok i → P u →
      P (u.perform i)) : P t := by
  induction h with
  | nil => exact hc
  | @cons is u i hrun hi ih =>
    have hu := ih fun k hk => hkeep k (Nat.lt_succ_of_lt hk)
    exact hkeep is.length (Nat.lt_succ_self _) u i hrun.iterate_eq hi hu

end Cpu

namespace Machine

/-! ## Playing -/

/-- What a machine that is traced reports of an operation that plays the program. -/
def reportsOf (s : Machine) : Operation → List Event
  | .tick => (s.tick true).journal
  | .step => (s.stepInstruction true).journal
  | _ => []

/-- While the history is played, the processor `c` executes the instruction `i`. -/
inductive Executes : Machine → List Operation → Cpu → Instruction → Prop
  | now {s : Machine} {o : Operation} {history : List Operation} {k : Nat} {c : Cpu}
    {i : Instruction} :
    k < (executions (s.reportsOf o)).length → s.cpu.iterate k = .ok c → c.fetch = .ok i →
      Executes s (o :: history) c i
  | later {s : Machine} {o : Operation} {history : List Operation} {c : Cpu} {i : Instruction} :
    Executes (s.apply true o) history c i → Executes s (o :: history) c i

/-- Nothing has been executed since the machine was made or reset, though programs may have been
loaded. -/
inductive Unplayed : Machine → Prop
  | fresh (dialect : Dialect) (clock seed : Int) : Unplayed (.fresh dialect clock seed)
  | reset (s : Machine) (dialect : Option Dialect) : Unplayed (s.reset dialect)
  | load {s s' : Machine} {program : Image} :
    Unplayed s → s.load program = .ok s' → Unplayed s'

variable {s : Machine} {o : Operation} {history : List Operation}

theorem Unplayed.index_eq (h : s.Unplayed) : s.cpu.index = 0 := by
  induction h with
  | fresh | reset => rfl
  | load _ hload ih =>
    obtain ⟨memory, rfl⟩ := exists_load_eq hload
    exact ih

theorem Unplayed.stepCycles_eq (h : s.Unplayed) : s.stepCycles = 0 := by
  induction h with
  | fresh | reset => rfl
  | load _ hload ih =>
    obtain ⟨memory, rfl⟩ := exists_load_eq hload
    exact ih

theorem Executes.fetch_eq {c : Cpu} {i : Instruction} (h : s.Executes history c i) :
    c.fetch = .ok i := by
  induction h with
  | now _ _ hi => exact hi
  | later _ ih => exact ih

end Machine

/-! ## What playing keeps -/

namespace Cpu

variable {P : Cpu → Prop} {s : Machine} {o : Machine.Operation} {history : List Machine.Operation}

/-- What the instructions keep that an operation executes, the operation keeps. -/
theorem Steady.apply (hP : Steady P) (ho : o.isPlay = true) (h : P s.cpu)
    (hkeep : ∀ c i, s.Executes (o :: history) c i → P c → P (c.perform i)) :
    P (s.apply true o).cpu := by
  have hrun {c : Cpu} (hc : s.cpu.Runs (executions (s.reportsOf o)) c) : P c :=
    hc.keeps h fun k hk u i hu hi => hkeep u i (.now hk hu hi)
  cases o with
  | tick =>
    obtain ⟨c, hc, hticked⟩ := s.runs_tick
    exact hP.of_ticked hticked (hrun hc)
  | step =>
    obtain ⟨c, hc, hticked⟩ := s.runs_stepInstruction
    exact hP.of_ticked hticked (hrun hc)
  | resume | setBreakpoint | removeBreakpoint => exact h
  | keyDown k => exact hP.keyDown k h
  | keyUp k => exact hP.keyUp k h
  | load | reset | line => cases ho

/-- What the instructions keep that are executed, playing keeps. -/
theorem Steady.after (hP : Steady P) (hplay : ∀ o ∈ history, o.isPlay = true) (h : P s.cpu)
    (hkeep : ∀ c i, s.Executes history c i → P c → P (c.perform i)) (trace : Bool) :
    P (s.after trace history).cpu := by
  rw [Machine.after_trace hplay]
  induction history generalizing s with
  | nil => exact h
  | cons o history ih =>
    obtain ⟨ho, hrest⟩ := List.forall_mem_cons.1 hplay
    exact ih hrest (hP.apply ho h hkeep) fun c i hi => hkeep c i (.later hi)

end Cpu

end ChipEight
