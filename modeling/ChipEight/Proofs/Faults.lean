/-
Words that are no instructions.

A step fails exactly if no pattern fits the word at the program counter, and then it has changed
nothing.  A frame in which this happens keeps what the instructions before that word have done, and
is broken off there: the timers do not tick, the machine does not halt, and a further frame fails at
the same word.

Main definitions:
* `Instruction.NoPatternFits`: the word is no instruction;
* `Flat.stepInPlace`: a step with all its checks, of which the effects stay if it fails.

Main statements:
* `Flat.run_stepInPlace_flat`: such a step is the step of the processor, and fails before it has
  done anything;
* `Machine.tick_of_error`: a frame that fails;
* `Machine.undecodable_word_leaves`: both of these, and single steps.
-/
import ChipEight.Proofs.Footprints
import ChipEight.Proofs.Schedules
import ChipEight.Proofs.WellFormed

namespace ChipEight

/-- No pattern fits the word. -/
def Instruction.NoPatternFits (word : Int) : Prop :=
  ∀ p ∈ Pattern.table, p.fits (word16 word) = false

theorem Cpu.fetch_eq_error_iff {c : Cpu} {e : InvalidOpcode} :
    c.fetch = .error e ↔ Instruction.NoPatternFits c.word ∧ e = ⟨c.word, some c.pc⟩ := by
  rw [Instruction.NoPatternFits, ← Instruction.decode_eq_error_iff, fetch]
  cases Instruction.decode c.word <;> simp [eq_comm]

/-! ## Steps that work in place -/

namespace Flat

/-- One step that works in place: the word is looked up, the program counter moves on, and then the
instruction is executed. -/
def stepInPlace : EStateM Fault Flat Cost := do
  let f ← get
  let word ← ofExcept (f.read16 f.pc)
  match Instruction.decode word with
  | .error _ => throw (.invalidOpcode ⟨word, some f.pc⟩)
  | .ok i =>
    set f.advance
    set (← ofExcept (execute i f.advance))
    return if i.opcode = .drw ∧ f.dialect.displayWait then .restOfFrame else .instruction

/-- A fault in the instruction would find the program counter moved on. -/
theorem run_stepInPlace {f : Flat} {word : Int} (hw : f.read16 f.pc = .ok word) :
    stepInPlace.run f =
      match Instruction.decode word with
      | .error _ => .error (.invalidOpcode ⟨word, some f.pc⟩) f
      | .ok i =>
        match execute i f.advance with
        | .ok f' =>
          .ok (if i.opcode = .drw ∧ f.dialect.displayWait then .restOfFrame else .instruction) f'
        | .error fault => .error fault f.advance := by
  have hread : (ofExcept (f.read16 f.pc) : EStateM Fault Flat Int).run f = .ok word f := by
    rw [hw]
    rfl
  simp only [stepInPlace, EStateM.run_bind, EStateM.run_get, hread]
  cases Instruction.decode word with
  | error e => rfl
  | ok i =>
    dsimp only
    cases execute i f.advance <;> rfl

/-- For a processor in range the step does what a step of the processor does, or fails and leaves
everything as it was. -/
theorem run_stepInPlace_flat {c : Cpu} (h : c.InRange) :
    stepInPlace.run c.flat =
      match c.step with
      | .ok (cost, c') => .ok cost c'.flat
      | .error e => .error (.invalidOpcode e) c.flat := by
  have hw : c.flat.read16 c.flat.pc = .ok (c.word : Int) := read16_flat c.pc
  rw [run_stepInPlace hw, Cpu.step, Cpu.fetch]
  cases hd : Instruction.decode c.word with
  | error e => rfl
  | ok i =>
    have hi : i.Admitted := Cpu.admitted_of_fetch (Cpu.fetch_eq_ok_iff.2 hd)
    dsimp only
    rw [advance_flat, execute_flat (c := c.advance) hi fun _ => h.delay]
    rfl

theorem run_stepInPlace_eq_error_iff {f f' : Flat} (h : f.WellFormed) {fault : Fault} :
    stepInPlace.run f = .error fault f' ↔
      ∃ word, f.read16 f.pc = .ok word ∧ Instruction.NoPatternFits word ∧
        fault = .invalidOpcode ⟨word, some f.pc⟩ ∧ f' = f := by
  obtain ⟨c, hc, rfl⟩ := exists_eq_flat h
  have hword : c.flat.read16 c.flat.pc = .ok (c.word : Int) := read16_flat c.pc
  rw [run_stepInPlace_flat hc, hword]
  cases hs : c.step with
  | ok r =>
    obtain ⟨cost, c'⟩ := r
    refine iff_of_false (fun heq => by cases heq) ?_
    rintro ⟨word, hw, hfits, -⟩
    cases hw
    have herror := Cpu.step_eq_error_iff.2
      ⟨Instruction.decode_eq_error_iff.2 hfits, rfl⟩
    rw [hs] at herror
    cases herror
  | error e =>
    obtain ⟨hd, rfl⟩ := Cpu.step_eq_error_iff.1 hs
    have hfits := Instruction.decode_eq_error_iff.1 hd
    constructor
    · intro heq
      cases heq
      exact ⟨c.word, rfl, hfits, rfl, rfl⟩
    · rintro ⟨word, hw, -, rfl, rfl⟩
      cases hw
      rfl

end Flat

/-- A run keeps the parts that none of its instructions may change. -/
theorem Cpu.Runs.kept {c t : Cpu} {is : List Instruction} {p : Cpu.Part} (h : c.Runs is t)
    (hw : ∀ i ∈ is, ∀ s : Cpu, ¬s.Writes i p) : p.Kept c t := by
  induction h with
  | nil => exact .refl c p
  | @cons is s i _ hi ih =>
    exact (ih fun j hj => hw j (by simp [hj])).trans (Cpu.kept_perform hi (hw i (by simp) s))

namespace Machine

variable {s : Machine} {trace : Bool} {fault : Fault} {e : InvalidOpcode} {cpu : Cpu} {left : Nat}
  {breakpoints : Breakpoints} {journal : List Event}

/-! ## Single steps -/

theorem stepCpu_of_fetch_error (he : s.cpu.fetch = .error e) :
    s.stepCpu trace = ⟨s, [s.cpu.faultNotice], .error (.invalidOpcode e)⟩ := by
  rw [stepCpu, he]

/-- A step of the processor of a machine, and a single step, have a result, or the word at the
program counter is no instruction and nothing has changed. -/
theorem ok_or_error_of_step {o : Outcome Int}
    (ho : o = s.stepCpu trace ∨ o = s.stepInstruction trace) :
    ((∃ i, s.cpu.fetch = .ok i) ∧ ∃ n, o.result = .ok n) ∨
      ∃ e, s.cpu.fetch = .error e ∧ o = ⟨s, [s.cpu.faultNotice], .error (.invalidOpcode e)⟩ := by
  cases hf : s.cpu.fetch with
  | ok i =>
    refine .inl ⟨⟨i, rfl⟩, ?_⟩
    rcases ho with rfl | rfl
    · rw [stepCpu, hf]
      exact ⟨_, rfl⟩
    · rw [stepInstruction_of_fetch hf]
      exact ⟨_, rfl⟩
  | error e =>
    refine .inr ⟨e, rfl, ?_⟩
    rcases ho with rfl | rfl
    · exact stepCpu_of_fetch_error hf
    · exact stepInstruction_of_fetch_error hf

theorem result_of_step_eq_error_iff {o : Outcome Int}
    (ho : o = s.stepCpu trace ∨ o = s.stepInstruction trace) :
    o.result = .error fault ↔ Instruction.NoPatternFits s.cpu.word ∧
      fault = .invalidOpcode ⟨s.cpu.word, some s.cpu.pc⟩ := by
  rcases ok_or_error_of_step ho with ⟨⟨i, hi⟩, n, hn⟩ | ⟨e, he, rfl⟩
  · rw [hn]
    refine iff_of_false (fun heq => by cases heq) fun ⟨hfits, _⟩ => ?_
    have he := Cpu.fetch_eq_error_iff.2 ⟨hfits, rfl⟩
    rw [hi] at he
    cases he
  · obtain ⟨hfits, rfl⟩ := Cpu.fetch_eq_error_iff.1 he
    simp [hfits, eq_comm]

/-! ## Frames -/

theorem runCycles_of_fetch_error (hl : 0 < left) (hr : cpu.running = true)
    (he : cpu.fetch = .error e) :
    runCycles trace breakpoints left cpu journal = ⟨cpu, cpu.faultNotice :: journal, .fault e⟩ := by
  rw [runCycles, dif_pos ⟨hl, hr⟩, he]

/-- The loop of a frame that fails is left at the word that is no instruction. -/
theorem fetch_of_fault
    (h : (runCycles trace breakpoints left cpu journal).ending = .fault e) :
    (runCycles trace breakpoints left cpu journal).cpu.fetch = .error e ∧
      (runCycles trace breakpoints left cpu journal).cpu.running = true ∧ 0 < left := by
  fun_induction runCycles trace breakpoints left cpu journal with
  | case1 left cpu journal hgo e' he =>
    cases h
    exact ⟨he, hgo.2, hgo.1⟩
  | case2 => cases h
  | case3 left cpu journal hgo i hi _ _ _ _ ih =>
    obtain ⟨he, hr, -⟩ := ih h
    exact ⟨he, hr, hgo.1⟩
  | case4 => cases h

theorem tick_of_fault (hl : s.isLive = true)
    (h : runCycles trace s.breakpoints s.budget.toNat s.cpu [] = ⟨cpu, journal, .fault e⟩) :
    s.tick trace = ⟨{ s with cpu }, journal, .error (.invalidOpcode e)⟩ := by
  rw [tick, if_pos hl, h]

theorem tick_of_fetch_error (hl : s.isLive = true) (hb : 0 < s.budget)
    (he : s.cpu.fetch = .error e) :
    s.tick trace = ⟨s, [s.cpu.faultNotice], .error (.invalidOpcode e)⟩ :=
  tick_of_fault hl (runCycles_of_fetch_error (by omega) (isLive_iff.1 hl).1 he)

/-- A frame that fails has made the run that it reports, and leaves the machine with the processor
at the end of that run; a further frame fails likewise. -/
theorem tick_of_error (h : (s.tick trace).result = .error fault) :
    ∃ c e, s.cpu.Runs (executions (s.tick true).journal) c ∧ c.fetch = .error e ∧
      fault = .invalidOpcode e ∧ s.halted = false ∧
      (s.tick trace).machine = { s with cpu := c } ∧
      ({ s with cpu := c }).tick trace = ⟨{ s with cpu := c }, [c.faultNotice], .error fault⟩ := by
  obtain ⟨hmachine, hresult⟩ := s.tick_trace trace
  rw [hresult] at h
  rw [hmachine]
  have hl : s.isLive = true := by
    by_contra hl
    rw [Bool.not_eq_true] at hl
    rw [tick_of_not_isLive hl] at h
    cases h
  have hnil : s.cpu.Runs (executions []) s.cpu := .nil
  have hrun := runs_runCycles s.breakpoints s.budget.toNat hnil
  have hfault := fun e
      (h : (runCycles true s.breakpoints s.budget.toNat s.cpu []).ending = .fault e) =>
    fetch_of_fault h
  rw [tick, if_pos hl] at h ⊢
  generalize runCycles true s.breakpoints s.budget.toNat s.cpu [] = frame at h hrun hfault
  obtain ⟨c, journal, ending⟩ := frame
  cases ending with
  | complete => cases h
  | breakpoint => cases h
  | fault e =>
    cases h
    obtain ⟨he, hr, hleft⟩ := hfault e rfl
    have hhalted := (isLive_iff.1 hl).2
    refine ⟨c, e, hrun, he, rfl, hhalted, rfl, ?_⟩
    exact tick_of_fetch_error (isLive_iff.2 ⟨hr, hhalted⟩) (Int.pos_iff_toNat_pos.2 hleft) he

/-! ## What is left -/

/-- A step of anything that is in order fails exactly if no pattern fits the word at the program
counter, tells that word and where it is, and leaves everything as it was; this is what the
processor does.  So do steps of the processor of a machine and single steps: the machine is left as
it was, with the cycles that single steps have counted.  A frame that fails leaves the machine with
the processor after the instructions before that word, which is at that word; the machine is not
halted, a timer that none of these instructions sets is as before, and a further frame fails
likewise and changes nothing. -/
theorem undecodable_word_leaves (trace : Bool) :
    (∀ f : Flat, f.WellFormed → ∀ fault f',
      Flat.stepInPlace.run f = .error fault f' ↔
        ∃ word, f.read16 f.pc = .ok word ∧ Instruction.NoPatternFits word ∧
          fault = .invalidOpcode ⟨word, some f.pc⟩ ∧ f' = f) ∧
    (∀ c : Cpu, c.flat.WellFormed →
      Flat.stepInPlace.run c.flat = match c.step with
        | .ok (cost, c') => .ok cost c'.flat
        | .error e => .error (.invalidOpcode e) c.flat) ∧
    (∀ (s : Machine) (fault : Fault), ∀ o ∈ [s.stepCpu trace, s.stepInstruction trace],
      (o.result = .error fault ↔ Instruction.NoPatternFits s.cpu.word ∧
        fault = .invalidOpcode ⟨s.cpu.word, some s.cpu.pc⟩) ∧
      (o.result = .error fault → o.machine = s)) ∧
    ∀ (s : Machine) (fault : Fault), (s.tick trace).result = .error fault →
      let is := executions (s.tick true).journal
      let s' := (s.tick trace).machine
      (∃ c, s.cpu.Runs is c ∧ s' = { s with cpu := c }) ∧ s'.halted = false ∧
      Instruction.NoPatternFits s'.cpu.word ∧
      fault = .invalidOpcode ⟨s'.cpu.word, some s'.cpu.pc⟩ ∧
      ((∀ i ∈ is, i.opcode ≠ .ldDelay) → s'.cpu.delay = s.cpu.delay) ∧
      ((∀ i ∈ is, i.opcode ≠ .ldSound) → s'.cpu.sound = s.cpu.sound) ∧
      (s'.tick trace).machine = s' ∧ (s'.tick trace).result = .error fault := by
  refine ⟨fun f hf fault f' => Flat.run_stepInPlace_eq_error_iff hf,
    fun c hc => Flat.run_stepInPlace_flat (Cpu.wellFormed_flat_iff.1 hc),
    fun s fault o ho => ?_, fun s fault hfault => ?_⟩
  · rw [List.mem_cons, List.mem_singleton] at ho
    refine ⟨result_of_step_eq_error_iff ho, fun herror => ?_⟩
    rcases ok_or_error_of_step ho with ⟨-, n, hn⟩ | ⟨e, -, rfl⟩
    · rw [hn] at herror
      cases herror
    · rfl
  · obtain ⟨c, e, hrun, he, rfl, hhalted, hmachine, hagain⟩ := tick_of_error hfault
    obtain ⟨hfits, rfl⟩ := Cpu.fetch_eq_error_iff.1 he
    rw [hmachine]
    refine ⟨⟨c, hrun, rfl⟩, hhalted, hfits, rfl, fun hset => ?_, fun hset => ?_, ?_, ?_⟩
    · exact hrun.kept (p := .delay) fun i hi _ => hset i hi
    · exact hrun.kept (p := .sound) fun i hi _ => hset i hi
    · rw [hagain]
    · rw [hagain]

/-- A program that sets a register, with a word behind it that is no instruction: the frame leaves
the register set and the delay timer as it was. -/
theorem undecodable_word_leaves_after_one :
    let start := { fresh .chip8 96000 0 with program := [0x60, 0x01, 0xFF, 0xFF] }.reset none
    let s := { start with cpu := { start.cpu with delay := 9 } }
    let fault := Fault.invalidOpcode ⟨0xFFFF, some 0x202⟩
    let s' := (s.tick false).machine
    (s.tick false).result = .error fault ∧ s'.cpu.flat.WellFormed ∧
      s'.cpu.delay = 9 ∧ s'.cpu.pc = 0x202 ∧ s'.cpu.register 0 = 1 ∧
      (s'.tick false).machine = s' ∧ (s'.tick false).result = .error fault ∧
      (s'.stepInstruction false).machine = s' ∧
      ∃ fault, Flat.stepInPlace.run s'.cpu.flat = .error fault s'.cpu.flat := by
  intro start s fault s'
  let set : Instruction := ⟨.ldByte, [0, 1]⟩
  let c := s.cpu.perform set
  have hset : s.cpu.fetch = .ok set :=
    fetch_of_program (k := 0) [0x60, 0x01, 0xFF, 0xFF] rfl rfl (by decide) rfl (by decide) rfl
  have hword : c.word = 0xFFFF :=
    word_of_program (k := 2) [0x60, 0x01, 0xFF, 0xFF] rfl rfl (by decide) rfl (by decide)
  have hfault : c.fetch = .error ⟨0xFFFF, some 0x202⟩ := by
    rw [Cpu.fetch, hword]
    rfl
  have htick (trace : Bool) : s.tick trace =
      ⟨{ s with cpu := c }, c.faultNotice :: (s.cpu.stepNotices trace set ++ []), .error fault⟩ :=
    tick_of_fault rfl <| by
      rw [runCycles_of_fetch (by decide) rfl hset fun h => by cases h]
      exact runCycles_of_fetch_error (by decide) rfl hfault
  have hresult : (s.tick false).result = .error fault := by rw [htick]
  have hreport : executions (s.tick true).journal = [set] := by
    rw [htick]
    rfl
  have hs : s' = { s with cpu := c } := congrArg Outcome.machine (htick false)
  have hfresh := Cpu.inRange_fresh .chip8 0
  have hstart : s.cpu.InRange :=
    ⟨hfresh.pc, hfresh.index, ⟨by decide, by decide⟩, hfresh.sound, hfresh.stack⟩
  have hrange : c.flat.WellFormed := Cpu.wellFormed_flat_iff.2 (hstart.perform hset)
  obtain ⟨hflat, -, hstep, hframe⟩ := undecodable_word_leaves false
  obtain ⟨-, -, hfits, -, hdelay, -, hagain, herror⟩ := hframe s fault hresult
  have hkept : ∀ i ∈ executions (s.tick true).journal, i.opcode ≠ .ldDelay := by
    rw [hreport]
    decide
  obtain ⟨hfails, hleaves⟩ := hstep s' (.invalidOpcode ⟨s'.cpu.word, some s'.cpu.pc⟩)
    (s'.stepInstruction false) (by simp)
  have hinPlace := (hflat c.flat hrange _ c.flat).2
    ⟨c.word, Flat.read16_flat c.pc, (Cpu.fetch_eq_error_iff.1 hfault).1, rfl, rfl⟩
  refine ⟨hresult, hs ▸ hrange, hdelay hkept, by rw [hs]; rfl, ?_, hagain, herror,
    hleaves (hfails.2 ⟨hfits, rfl⟩), ?_⟩
  · rw [hs]
    exact (Cpu.register_setRegister _ 0 0 1).trans (if_pos rfl)
  · rw [hs]
    exact ⟨_, hinPlace⟩

end Machine

end ChipEight
