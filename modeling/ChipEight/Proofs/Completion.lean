/-
Running until the program stops.

A run that is to go on until the program stops makes plain frames, and breaks off when the program
has stopped or when as many frames were run as were allowed.  The frame in which the program stops
is not counted by it, while the loop that looks at the machine before each frame counts it.  So the
two report different numbers, except where the program has stopped before the first frame.

Main definitions:
* `Machine.StopsAfter`: the number of frames after which the program is first stopped.

Main statements:
* `Machine.runUntilStoppedFrom_spec`: what is left of the run, and what it reports;
* `Machine.LeavesAfter.eq_of_stopsAfter`: the loop is left when the program has stopped;
* `Machine.stopping_run_counts`: the run beside plain frames and beside the loop.
-/
import ChipEight.Proofs.Loops
import ChipEight.Proofs.Stopping

namespace ChipEight.Machine

/-- The program is first stopped after `j` frames, of which none fails. -/
structure StopsAfter (s : Machine) (trace : Bool) (j : Nat) : Prop where
  succeeds : (s.ticks trace j).result = .ok ()
  stopped : (s.ticks trace j).machine.cpu.running = false
  running : ∀ i < j, (s.ticks trace i).machine.cpu.running = true

variable {s : Machine} {trace : Bool} {f : Fault} {i j k n ran : Nat} {journal : List Event}

/-! ## Frames of a machine that does nothing -/

/-- Nothing comes of the frames behind those that leave the machine not live. -/
theorem ticks_eq_of_le (hl : (s.ticks trace i).machine.isLive = false) (hk : i ≤ k) :
    s.ticks trace k = s.ticks trace i := by
  induction i generalizing s k with
  | zero => exact ticks_of_not_isLive hl trace k
  | succ i ih =>
    obtain ⟨k, rfl⟩ : ∃ l, k = l + 1 := ⟨k - 1, by omega⟩
    cases ht : (s.tick trace).result with
    | ok _ =>
      rw [ticks_succ_of_ok ht] at hl
      rw [ticks_succ_of_ok ht, ticks_succ_of_ok ht, ih hl (by omega)]
    | error f => rw [ticks_succ_of_error ht, ticks_succ_of_error ht]

/-! ## When the program stops -/

theorem stopsAfter_zero (h : s.cpu.running = false) : s.StopsAfter trace 0 :=
  ⟨rfl, h, fun _ hi => absurd hi (Nat.not_lt_zero _)⟩

theorem StopsAfter.succ (ht : (s.tick trace).result = .ok ()) (hr : s.cpu.running = true)
    (h : (s.tick trace).machine.StopsAfter trace j) : s.StopsAfter trace (j + 1) := by
  have hnext (i : Nat) :
      (s.ticks trace (i + 1)).machine = ((s.tick trace).machine.ticks trace i).machine := by
    rw [ticks_succ_of_ok ht]
  refine ⟨?_, by rw [hnext, h.stopped], fun i hi => ?_⟩
  · rw [ticks_succ_of_ok ht]
    exact h.succeeds
  · cases i with
    | zero => exact hr
    | succ i =>
      rw [hnext]
      exact h.running i (Nat.lt_of_succ_lt_succ hi)

/-- A program stops after one number of frames only. -/
theorem StopsAfter.eq (h : s.StopsAfter trace j) (h' : s.StopsAfter trace k) : j = k := by
  rcases Nat.lt_trichotomy j k with hlt | heq | hlt
  · exact absurd (h'.running j hlt) (by simp [h.stopped])
  · exact heq
  · exact absurd (h.running k hlt) (by simp [h'.stopped])

/-- Nothing is done in the frames behind the one in which the program stops. -/
theorem StopsAfter.ticks_eq (h : s.StopsAfter trace j) (hj : j ≤ n) :
    s.ticks trace n = s.ticks trace j :=
  ticks_eq_of_le (isLive_of_not_running h.stopped) hj

/-- The loop of frames is left when the program has stopped, unless it was halted before; but a
program that is halted does not stop. -/
theorem LeavesAfter.eq_of_stopsAfter (h : s.LeavesAfter trace n k) (hs : s.StopsAfter trace j)
    (hj : j ≤ n) : k = j := by
  rcases Nat.lt_trichotomy k j with hlt | heq | hlt
  · have hsame := ticks_eq_of_le (h.ended (by omega)) (Nat.le_of_lt hlt)
    have hrunning := hs.running k hlt
    rw [← hsame, hs.stopped] at hrunning
    cases hrunning
  · exact heq
  · have hlive := h.live j hlt
    rw [isLive_of_not_running hs.stopped] at hlive
    cases hlive

/-! ## The run -/

theorem runUntilStoppedFrom_succ_of_error (ht : (s.tick trace).result = .error f) :
    runUntilStoppedFrom trace ran journal s (n + 1) =
      ⟨(s.tick trace).machine, (s.tick trace).journal ++ journal, .error f⟩ := by
  rw [runUntilStoppedFrom]
  simp only [ht]

theorem runUntilStoppedFrom_succ_of_running (ht : (s.tick trace).result = .ok ())
    (hr : (s.tick trace).machine.cpu.running = true) :
    runUntilStoppedFrom trace ran journal s (n + 1) =
      runUntilStoppedFrom trace (ran + 1) ((s.tick trace).journal ++ journal)
        (s.tick trace).machine n := by
  rw [runUntilStoppedFrom]
  simp only [ht, hr, if_true]

theorem runUntilStoppedFrom_succ_of_not_running (ht : (s.tick trace).result = .ok ())
    (hr : (s.tick trace).machine.cpu.running = false) :
    runUntilStoppedFrom trace ran journal s (n + 1) =
      ⟨(s.tick trace).machine, (s.tick trace).journal ++ journal, .ok (some ran)⟩ := by
  rw [runUntilStoppedFrom]
  simp only [ht, hr, Bool.false_eq_true, if_false]

/-- The run leaves what plain frames leave, and fails if one of them fails.  Otherwise either the
program has not stopped, or the run reports the number of frames after which it has, less one. -/
theorem runUntilStoppedFrom_spec (s : Machine) (trace : Bool) (ran : Nat) (journal : List Event)
    (n : Nat) :
    (runUntilStoppedFrom trace ran journal s n).machine = (s.ticks trace n).machine ∧
      (runUntilStoppedFrom trace ran journal s n).journal = (s.ticks trace n).journal ++ journal ∧
      match (s.ticks trace n).result with
      | .error f => (runUntilStoppedFrom trace ran journal s n).result = .error f
      | .ok () =>
        ((s.ticks trace n).machine.cpu.running = true ∨ n = 0) ∧
            (runUntilStoppedFrom trace ran journal s n).result = .ok none ∨
          ∃ j ≤ n, s.StopsAfter trace j ∧
            (runUntilStoppedFrom trace ran journal s n).result = .ok (some (ran + (j - 1))) := by
  induction n generalizing s ran journal with
  | zero => exact ⟨rfl, rfl, .inl ⟨.inr rfl, rfl⟩⟩
  | succ n ih =>
    cases ht : (s.tick trace).result with
    | error f =>
      rw [runUntilStoppedFrom_succ_of_error ht, ticks_succ_of_error ht, ht]
      exact ⟨rfl, rfl, rfl⟩
    | ok _ =>
      cases hr : (s.tick trace).machine.cpu.running with
      | false =>
        rw [runUntilStoppedFrom_succ_of_not_running ht hr,
          ticks_succ_of_not_isLive ht (isLive_of_not_running hr), ht]
        refine ⟨rfl, rfl, .inr ?_⟩
        -- The frame counts only if the program was running before it.
        cases hs : s.cpu.running with
        | false => exact ⟨0, Nat.zero_le _, stopsAfter_zero hs, rfl⟩
        | true => exact ⟨1, by omega, .succ ht hs (stopsAfter_zero hr), rfl⟩
      | true =>
        have hs : s.cpu.running = true := by
          rw [← Bool.not_eq_false]
          intro hs
          rw [kept_not_running.tick trace hs] at hr
          cases hr
        obtain ⟨hmachine, hjournal, hresult⟩ :=
          ih (s.tick trace).machine (ran + 1) ((s.tick trace).journal ++ journal)
        rw [runUntilStoppedFrom_succ_of_running ht hr, ticks_succ_of_ok ht]
        refine ⟨hmachine, by rw [hjournal, List.append_assoc], ?_⟩
        dsimp only
        cases hrest : ((s.tick trace).machine.ticks trace n).result with
        | error f =>
          rw [hrest] at hresult
          exact hresult
        | ok _ =>
          rw [hrest] at hresult
          rcases hresult with ⟨hrunning, hnone⟩ | ⟨j, hj, hstops, hsome⟩
          · refine .inl ⟨.inl ?_, hnone⟩
            rcases hrunning with hrunning | rfl
            · exact hrunning
            · exact hr
          · have hpos : j ≠ 0 := by
              rintro rfl
              have hstopped : (s.tick trace).machine.cpu.running = false := hstops.stopped
              rw [hr] at hstopped
              cases hstopped
            refine .inr ⟨j + 1, Nat.succ_le_succ hj, hstops.succ ht hs, ?_⟩
            rw [hsome, show ran + 1 + (j - 1) = ran + (j + 1 - 1) by omega]

/-- If the program is not running after some frames, it has first stopped after some of them. -/
theorem exists_stopsAfter (hok : (s.ticks trace n).result = .ok ())
    (h : (s.ticks trace n).machine.cpu.running = false) : ∃ j ≤ n, s.StopsAfter trace j := by
  obtain ⟨-, -, hresult⟩ := runUntilStoppedFrom_spec s trace 0 [] n
  rw [hok] at hresult
  rcases hresult with ⟨hrunning | rfl, -⟩ | ⟨j, hj, hs, -⟩
  · exact absurd (h.symm.trans hrunning) Bool.false_ne_true
  · exact ⟨0, Nat.le_refl 0, stopsAfter_zero h⟩
  · exact ⟨j, hj, hs⟩

/-- The run does not count the frame in which the program stops. -/
theorem result_runUntilStopped_of_stopsAfter (hn : 1 ≤ n) (hs : s.StopsAfter trace j)
    (hj : j ≤ n) : (s.runUntilStopped trace n).result = .ok (j - 1) := by
  obtain ⟨-, -, hresult⟩ := runUntilStoppedFrom_spec s trace 0 [] n
  rw [hs.ticks_eq hj, hs.succeeds] at hresult
  rw [runUntilStopped, Int.toNat_natCast]
  rcases hresult with ⟨hrunning | rfl, -⟩ | ⟨k, -, hs', hsome⟩
  · exact absurd (hs.stopped.symm.trans hrunning) Bool.false_ne_true
  · exact absurd hn (by omega)
  · simp only [hsome, Nat.zero_add, hs.eq hs']

/-- The run fails if the program is running after all of its frames. -/
theorem result_runUntilStopped_of_running (hok : (s.ticks trace n).result = .ok ())
    (hr : (s.ticks trace n).machine.cpu.running = true) :
    (s.runUntilStopped trace n).result = .error (.timeout n) := by
  obtain ⟨-, -, hresult⟩ := runUntilStoppedFrom_spec s trace 0 [] n
  rw [hok] at hresult
  rw [runUntilStopped, Int.toNat_natCast]
  rcases hresult with ⟨-, hnone⟩ | ⟨j, hj, hs, -⟩
  · simp only [hnone]
  · rw [hs.ticks_eq hj, hs.stopped] at hr
    cases hr

/-- The run fails if one of its frames fails. -/
theorem result_runUntilStopped_of_error (h : (s.ticks trace n).result = .error f) :
    (s.runUntilStopped trace n).result = .error f := by
  obtain ⟨-, -, hresult⟩ := runUntilStoppedFrom_spec s trace 0 [] n
  rw [h] at hresult
  rw [runUntilStopped, Int.toNat_natCast]
  simp only [hresult]

/-- The loop of frames counts the frame in which the program stops. -/
theorem result_runFrames (hs : s.StopsAfter trace j) (hj : j ≤ n) :
    (s.runFrames trace n).result = .ok j := by
  obtain ⟨-, -, hresult⟩ := runFramesFrom_spec s trace 0 [] n
  rw [hs.ticks_eq hj, hs.succeeds] at hresult
  obtain ⟨k, hk, hran⟩ := hresult
  rw [runFrames, hran, hk.eq_of_stopsAfter hs hj, Nat.zero_add]

/-! ## The run beside the loop -/

/-- A run that is allowed at least one frame, and the loop of as many frames, leave what plain
frames leave.  If no frame fails and the program is not running after them, it has first stopped
after some of them: the loop reports their number, and the run one less, unless there are none.  If
the program is still running after all frames, the run fails because of that, and if a frame fails,
it fails likewise. -/
theorem stopping_run_counts (s : Machine) (trace : Bool) (n : Nat) (hn : 1 ≤ n) :
    let plain := s.ticks trace n
    let run := s.runUntilStopped trace n
    let loop := s.runFrames trace n
    (run.machine = plain.machine ∧ run.journal = plain.journal) ∧
    (loop.machine = run.machine ∧ loop.journal = run.journal) ∧
    (plain.result = .ok () → plain.machine.cpu.running = false → ∃ j ≤ n, s.StopsAfter trace j) ∧
    (∀ j ≤ n, s.StopsAfter trace j →
      run.machine = (s.ticks trace j).machine ∧ loop.result = .ok j ∧ run.result = .ok (j - 1)) ∧
    (plain.result = .ok () → plain.machine.cpu.running = true →
      run.result = .error (.timeout n)) ∧
    ∀ f, plain.result = .error f → run.result = .error f := by
  intro plain run loop
  obtain ⟨hmachine, hjournal, -⟩ := runUntilStoppedFrom_spec s trace 0 [] n
  obtain ⟨hmachine', hjournal', -⟩ := runFramesFrom_spec s trace 0 [] n
  rw [List.append_nil] at hjournal hjournal'
  have hrun : run.machine = plain.machine ∧ run.journal = plain.journal := ⟨hmachine, hjournal⟩
  refine ⟨hrun, ⟨hmachine'.trans hrun.1.symm, hjournal'.trans hrun.2.symm⟩, exists_stopsAfter,
    fun j hj hs => ⟨?_, ?_, ?_⟩, result_runUntilStopped_of_running,
    fun f => result_runUntilStopped_of_error⟩
  · rw [hrun.1, ← hs.ticks_eq hj]
  · exact result_runFrames hs hj
  · exact result_runUntilStopped_of_stopsAfter hn hs hj

/-! ## A program that stops in its second frame -/

/-- A machine that executes one instruction in a frame, with a program that sets a register and then
jumps to itself. -/
def settingOnce : Machine :=
  { fresh .chip8 48000 0 with program := [0x60, 0x01, 0x12, 0x02] }.reset none

theorem stopsAfter_settingOnce : settingOnce.StopsAfter false 2 := by
  let set : Instruction := ⟨.ldByte, [0, 1]⟩
  let jump : Instruction := ⟨.jp, [0x202]⟩
  let s := settingOnce
  let c := (s.cpu.perform set).tickTimers
  have hset : s.cpu.fetch = .ok set :=
    fetch_of_program (k := 0) [0x60, 0x01, 0x12, 0x02] rfl rfl (by decide) rfl (by decide) rfl
  have hjump : c.fetch = .ok jump :=
    fetch_of_program (k := 2) [0x60, 0x01, 0x12, 0x02] rfl rfl (by decide) rfl (by decide) rfl
  have hfirst : s.tick false = _ := tick_of_complete rfl <| by
    rw [runCycles_of_fetch (by decide) rfl hset (by decide)]
    exact runCycles_zero
  have hsecond : ({ s with cpu := c }).tick false = _ := tick_of_complete rfl <| by
    rw [runCycles_of_fetch (by decide) rfl hjump (by decide)]
    exact runCycles_zero
  have hafter : (s.tick false).machine = { s with cpu := c } := by rw [hfirst]
  refine .succ (by rw [hfirst]) rfl ?_
  rw [hafter]
  refine .succ (by rw [hsecond]) rfl (stopsAfter_zero ?_)
  rw [hsecond]
  rfl

/-- Within five frames the program stops in the second: the loop reports two of them, the run
one. -/
theorem stopping_run_counts_of_two_frames :
    let s := settingOnce
    1 ≤ 5 ∧ s.StopsAfter false 2 ∧ (s.runFrames false 5).result = .ok 2 ∧
      (s.runUntilStopped false 5).result = .ok 1 ∧
      (s.runUntilStopped false 5).machine = (s.ticks false 2).machine := by
  intro s
  obtain ⟨-, -, -, hstops, -⟩ := stopping_run_counts s false 5 (by decide)
  obtain ⟨hmachine, hloop, hrun⟩ := hstops 2 (by decide) stopsAfter_settingOnce
  exact ⟨by decide, stopsAfter_settingOnce, hloop, hrun, hmachine⟩

/-- The run does not report the number of frames that were needed, not even if the program stops in
the last frame that is allowed. -/
theorem stopping_run_counts_too_few :
    let s := settingOnce
    (∀ a, a ∉ s.breakpoints) ∧ s.StopsAfter false 2 ∧ (s.runFrames false 2).result = .ok 2 ∧
      (s.runUntilStopped false 2).result ≠ .ok 2 := by
  intro s
  have hstops : s.StopsAfter false 2 := stopsAfter_settingOnce
  have hrun : (s.runUntilStopped false 2).result = .ok 1 :=
    result_runUntilStopped_of_stopsAfter (by decide) hstops (Nat.le_refl 2)
  refine ⟨fun _ ha => ?_, hstops, result_runFrames hstops (Nat.le_refl 2), ?_⟩
  · cases ha
  · rw [hrun]
    decide

end ChipEight.Machine
