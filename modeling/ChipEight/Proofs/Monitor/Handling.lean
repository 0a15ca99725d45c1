/-
Every failure is handled: the monitor whose operations raise their failures survives every line.

A command that raises nothing, or handles what it raises, leaves what the command of the monitor
leaves; what it handles, it prints.  The failures that a command does not handle itself are
malformed values, for which there is a handler around the line.  Nothing is ever done that makes no
sense.

Main statements:
* `checkStep_eq`, `run_checkText`, `run_unknown`: what would make no sense does not happen;
* `answers_perform`: every command answers as the command of the monitor does;
* `every_line_survived`: every line is carried out, and whatever is raised is told.
-/
import ChipEight.Proofs.Assembly.Written
import ChipEight.Proofs.Loops
import ChipEight.Proofs.Monitor.Answers
import ChipEight.Proofs.Schedules
import ChipEight.Proofs.Sources

namespace ChipEight.Monitor

open Act

/-! ## Commands with handlers -/

section Handled

variable {d : Directory} {trace : Bool} {c : Console} {line rest path : List Char}

/-! ### Loading -/

/-- What a file cannot be loaded for is refused by the system or is a malformed value. -/
theorem kind_of_loadRaw {s : Machine} {e : SourceError} (h : s.loadRaw d path = .error e) :
    (Failure.rejection (.source e)).kind = .system ∨
      (Failure.rejection (.source e)).kind = .value := by
  rw [Machine.loadRaw] at h
  cases hread : d.read path with
  | error e' =>
    rw [hread] at h
    cases h
    by_cases hnull : e'.fault = .nullCharacter
    · exact .inr (if_pos hnull)
    · exact .inl (if_neg hnull)
  | ok program =>
    rw [hread] at h
    dsimp only at h
    rw [Machine.loadSized] at h
    split at h
    · cases h
    · cases h
      exact .inr rfl

theorem answers_load : Answers (Raising.load d rest) () c (.ofExcept c (load d rest c)) := by
  refine reads_wordsOf.answers fun words => ?_
  cases words with
  | nil => exact .of_quiet fun raised => rfl
  | cons path more =>
    rw [if_neg (List.cons_ne_nil path more)]
    dsimp only
    cases hload : c.machine.loadRaw d path with
    | ok p =>
      have hfile (raised) : (Raising.loadFile d path).run ⟨c, raised⟩ =
          .ok p.2 ⟨{ c with machine := p.1 }, raised⟩ := by
        rw [Raising.loadFile, run_bind_of_ok run_console, hload]
        rfl
      refine .of_quiet fun raised => run_handling_of_ok ?_
      exact (run_bind_of_ok rfl).trans (run_bind_of_ok (hfile raised))
    | error e =>
      have hfile (raised) : (Raising.loadFile d path).run ⟨c, raised⟩ =
          .error (.failure (.rejection (.source e))) ⟨c, .rejection (.source e) :: raised⟩ := by
        rw [Raising.loadFile, run_bind_of_ok run_console, hload]
        rfl
      let f := Failure.rejection (.source e)
      show Answers _ () c (.done (c.printError f.message))
      refine .of_told f (fun raised => ?_) Console.told_printError
      exact run_handling_of_some ((run_bind_of_ok rfl).trans (run_bind_of_error (hfile raised)))
        (if_pos (kind_of_loadRaw hload)) rfl

/-! ### Assembling -/

/-- A text that cannot be had from a file. -/
theorem kind_of_readText {e : SourceError} (h : d.readText path = .error e) :
    (∃ e', e = .path e') ∨ (∃ e', e = .encoding e') := by
  rcases d.readText_cases path with ⟨text, -, hread⟩ | ⟨e', -, hread⟩ | ⟨bytes, e', -, -, hread⟩
  · rw [hread] at h
    cases h
  · rw [hread] at h
    cases h
    exact .inl ⟨e', rfl⟩
  · rw [hread] at h
    cases h
    exact .inr ⟨e', rfl⟩

/-- The source text is found, or its file cannot be opened and this is told, or the text is
rejected. -/
theorem run_source (d : Directory) (path : List Char) (more : List (List Char)) (c : Console) :
    match sourceText d path more with
    | .ok (.ok text) =>
      ∀ raised, (Raising.source d (path :: more)).run ⟨c, raised⟩ = .ok (some text) ⟨c, raised⟩
    | .ok (.error message) =>
      ∃ f, (∀ raised, (Raising.source d (path :: more)).run ⟨c, raised⟩ =
          .ok none ⟨c.print message, f :: raised⟩) ∧
        c.Told (c.print message) f.message
    | .error e => Reads (Raising.source d (path :: more)) c (.error e) := by
  rw [sourceText]
  by_cases hinline : path = ['-', 'e']
  · subst hinline
    cases more with
    | nil => exact fun raised => rfl
    | cons text more => exact fun raised => rfl
  · rw [if_neg hinline]
    have hsource (raised) : (Raising.source d (path :: more)).run ⟨c, raised⟩ =
        (Raising.openText d path).run ⟨c, raised⟩ :=
      (run_bind_of_ok rfl).trans (congrArg (EStateM.run · _) (if_neg hinline))
    cases hread : d.readText path with
    | ok text =>
      refine fun raised => (hsource raised).trans (run_handling_of_ok ?_)
      rw [Raising.readText, hread]
      rfl
    | error e =>
      let f := Failure.rejection (.source e)
      have hraised (raised) : (Raising.readText d path).run ⟨c, raised⟩ =
          .error (.failure f) ⟨c, f :: raised⟩ := by
        rw [Raising.readText, hread]
        rfl
      -- Values that are malformed are left to the handler around the line.
      have hvalue (h : f.kind = .value) :
          Reads (Raising.source d (path :: more)) c (.error (.source e)) :=
        .error (fun raised => (hsource raised).trans
          (run_handling_of_none (run_bind_of_error (hraised raised))
            (if_neg (by rw [h]; decide)))) h
      obtain ⟨e', rfl⟩ | ⟨e', rfl⟩ := kind_of_readText hread
      · dsimp only
        by_cases hnull : e'.fault = .nullCharacter
        · rw [if_pos hnull]
          exact hvalue (if_pos hnull)
        · rw [if_neg hnull]
          refine ⟨f, fun raised => (hsource raised).trans ?_, Console.told_print_append _⟩
          exact run_handling_of_some (run_bind_of_error (hraised raised))
            (if_pos (if_neg hnull)) rfl
      · exact hvalue rfl

/-- Every failure of assembling and loading is handled. -/
theorem answers_assembleAndLoad (text : List Char) :
    Answers (Raising.assembleAndLoad text) () c (.done (assembleAndLoad text c)) := by
  have hguards := Assembly.Guarded.assemble_eq text Memory.programStart
  rw [Raising.assembleAndLoad, assembleAndLoad]
  cases himage : Assembly.assemble text Memory.programStart with
  | error e =>
    let f := Failure.rejection (.source (.assembly e))
    have hraised (raised) : (Raising.image text).run ⟨c, raised⟩ =
        .error (.failure f) ⟨c, f :: raised⟩ := by
      rw [Raising.image, hguards, himage]
      rfl
    refine .of_told f (fun raised => ?_) (Console.told_print_append "Assembly error: ")
    exact run_handling_of_some (run_bind_of_error (hraised raised)) rfl rfl
  | ok image =>
    have hassembled (raised) : (Raising.image text).run ⟨c, raised⟩ = .ok image ⟨c, raised⟩ := by
      rw [Raising.image, hguards, himage]
      rfl
    dsimp only
    cases hload : c.machine.load image with
    | ok s =>
      refine .of_quiet fun raised =>
        run_handling_of_ok ((run_bind_of_ok (hassembled raised)).trans ?_)
      rw [Raising.loadImage, run_bind_of_ok run_console, hload]
      rfl
    | error e =>
      let f := Failure.rejection (.source (.tooLarge e))
      have hraised (raised) : (Raising.loadImage image).run ⟨c, raised⟩ =
          .error (.failure f) ⟨c, f :: raised⟩ := by
        rw [Raising.loadImage, run_bind_of_ok run_console, hload]
        rfl
      refine .of_told f (fun raised => ?_) Console.told_printError
      exact run_handling_of_some ((run_bind_of_ok (hassembled raised)).trans (hraised raised))
        rfl rfl

theorem answers_assemble :
    Answers (Raising.assemble d rest) () c (.ofExcept c (assemble d rest c)) := by
  refine reads_wordsOf.answers fun words => ?_
  cases words with
  | nil => exact .of_quiet fun raised => rfl
  | cons path more =>
    rw [if_neg (List.cons_ne_nil path more)]
    have hrun := run_source d path more c
    dsimp only
    generalize sourceText d path more = found at hrun ⊢
    rcases found with e | message | text
    · exact hrun.rejected
    · obtain ⟨f, hrun, htold⟩ := hrun
      exact .of_told f (fun raised => run_bind_of_ok (hrun raised)) htold
    · exact (answers_assembleAndLoad text).of_run fun raised => run_bind_of_ok (hrun raised)

/-! ### Dialects -/

theorem answers_dialect : Answers (Raising.dialect rest) () c (.done (dialect rest c)) := by
  rw [Raising.dialect, dialect]
  split
  · exact .of_quiet fun raised => rfl
  · cases hpreset : Dialect.preset rest with
    | ok d =>
      exact .of_quiet fun raised => rfl
    | error e =>
      let f := Failure.preset e
      exact .of_told f (fun raised => rfl) Console.told_printError

/-! ### Steps and frames -/

/-- The checks before a step never fail. -/
theorem checkStep_eq (cpu : Cpu) : Raising.checkStep cpu = .ok () := by
  rw [Raising.checkStep]
  cases hstep : cpu.flat.step with
  | ok r => rfl
  | error fault =>
    obtain ⟨e, rfl⟩ := Flat.exists_of_step_flat_eq_error hstep
    rfl

/-- The checks never stop a frame. -/
theorem runCycles_eq (breakpoints : Breakpoints) (left : Nat) (cpu : Cpu) (journal : List Event) :
    Raising.runCycles trace breakpoints left cpu journal =
      .ok (Machine.runCycles trace breakpoints left cpu journal) := by
  fun_induction Machine.runCycles trace breakpoints left cpu journal with
  | case1 left cpu journal h e hfetch =>
    rw [Raising.runCycles, dif_pos h, checkStep_eq, hfetch]
  | case2 left cpu journal h i hfetch =>
    rename_i cpu' hbreak
    rw [Raising.runCycles, dif_pos h, checkStep_eq, hfetch]
    exact if_pos hbreak
  | case3 left cpu journal h i hfetch =>
    rename_i cost cpu' hbreak ih
    rw [Raising.runCycles, dif_pos h, checkStep_eq, hfetch]
    exact (if_neg hbreak).trans ih
  | case4 left cpu journal h => rw [Raising.runCycles, dif_neg h]

section Finish

variable {α : Type} {o : Outcome α} {raised : List Failure}

theorem run_finish_of_ok {a : α} (h : o.result = .ok a) :
    (Raising.finish o).run ⟨c, raised⟩ = .ok a ⟨c.after o, raised⟩ := by
  rw [Raising.finish, h]
  rfl

theorem run_finish_of_error {f : Fault} (h : o.result = .error f) :
    (Raising.finish o).run ⟨c, raised⟩ =
      .error (.failure (.fault f)) ⟨c.after o, .fault f :: raised⟩ := by
  rw [Raising.finish, h]
  rfl

/-- What is left after one operation and another. -/
theorem run_finish_after {o' : Outcome Unit} :
    (Raising.finish o).run ⟨c.after o', raised⟩ =
      (Raising.finish { o with journal := o.journal ++ o'.journal }).run ⟨c, raised⟩ := by
  rw [Raising.finish, Raising.finish, run_bind_of_ok (run_update _),
    run_bind_of_ok (run_update _)]
  dsimp only [Console.after]
  rw [List.append_assoc]

end Finish

theorem run_tick (s : Desk) :
    (Raising.tick trace).run s = (Raising.finish (s.console.machine.tick trace)).run s := by
  rw [Raising.tick, run_bind_of_ok run_console, Machine.tick]
  dsimp only
  by_cases hlive : s.console.machine.isLive = true
  · rw [if_pos hlive, if_pos hlive, runCycles_eq, orBreach_ok,
      run_bind_of_ok (EStateM.run_pure _ _)]
    generalize Machine.runCycles trace _ _ _ _ = frame
    obtain ⟨cpu, journal, ending⟩ := frame
    cases ending <;> rfl
  · rw [if_neg hlive, if_neg hlive]
    rfl

theorem run_stepInstruction (s : Desk) :
    (Raising.stepInstruction trace).run s =
      (Raising.finish (s.console.machine.stepInstruction trace)).run s := by
  rw [Raising.stepInstruction, run_bind_of_ok run_console]
  dsimp only
  rw [checkStep_eq, orBreach_ok, run_bind_of_ok (EStateM.run_pure _ _)]

/-- A step fails only at a word that is no instruction. -/
theorem exists_of_stepInstruction_eq_error {s : Machine} {f : Fault}
    (h : (s.stepInstruction trace).result = .error f) : ∃ e, f = .invalidOpcode e := by
  cases hfetch : s.cpu.fetch with
  | ok i =>
    rw [Machine.stepInstruction_of_fetch hfetch] at h
    cases h
  | error e =>
    rw [Machine.stepInstruction_of_fetch_error hfetch] at h
    cases h
    exact ⟨e, rfl⟩

section Unless

variable {α : Type} {act : Act α} {o : Outcome α}

theorem run_unlessInvalid_of_ok {a : α} (h : o.result = .ok a) {raised : List Failure}
    (hact : act.run ⟨c, raised⟩ = (Raising.finish o).run ⟨c, raised⟩) :
    (Raising.unlessInvalid act).run ⟨c, raised⟩ = .ok (some a) ⟨c.after o, raised⟩ :=
  run_handling_of_ok (run_bind_of_ok (hact.trans (run_finish_of_ok h)))

theorem run_unlessInvalid_of_error {e : InvalidOpcode} (h : o.result = .error (.invalidOpcode e))
    {raised : List Failure} (hact : act.run ⟨c, raised⟩ = (Raising.finish o).run ⟨c, raised⟩) :
    (Raising.unlessInvalid act).run ⟨c, raised⟩ =
      .ok none ⟨(c.after o).printError e.message, .fault (.invalidOpcode e) :: raised⟩ :=
  run_handling_of_some (run_bind_of_error (hact.trans (run_finish_of_error h))) rfl rfl

/-- A command that has met a word that is no instruction. -/
theorem Answers.of_invalid {act : Act Unit} {e : InvalidOpcode}
    (h : ∀ raised, act.run ⟨c, raised⟩ =
      .ok () ⟨(c.after o).printError e.message, .fault (.invalidOpcode e) :: raised⟩) :
    Answers act () c (.done ((c.after o).printError e.message)) :=
  .of_told (.fault (.invalidOpcode e)) h
    (Console.told_printError.of_printed (Console.exists_of_printed_eq rfl))

end Unless

section Steps

variable {count : Nat} {s s' : Desk}

theorem run_steps_of_some {cycles : Int} (hrunning : s.console.machine.cpu.running = true)
    (h : (Raising.unlessInvalid (Raising.stepInstruction trace)).run s = .ok (some cycles) s') :
    (Raising.steps trace (count + 1)).run s =
      (Raising.steps trace count).run { s' with
        console := s'.console.print (stepLine s.console.machine.cpu.pc s.console.machine.cpu.word
          cycles) } := by
  rw [Raising.steps, run_bind_of_ok run_console]
  dsimp only
  rw [if_pos hrunning, run_bind_of_ok (run_checkText _ _), run_bind_of_ok h]
  rfl

theorem run_steps_of_none (hrunning : s.console.machine.cpu.running = true)
    (h : (Raising.unlessInvalid (Raising.stepInstruction trace)).run s = .ok none s') :
    (Raising.steps trace (count + 1)).run s = .ok () s' := by
  rw [Raising.steps, run_bind_of_ok run_console]
  dsimp only
  rw [if_pos hrunning, run_bind_of_ok (run_checkText _ _), run_bind_of_ok h]
  rfl

end Steps

/-- Steps are made up to a word that is no instruction, which is told. -/
theorem answers_steps (count : Nat) :
    Answers (Raising.steps trace count) () c (.done (steps trace c count)) := by
  induction count generalizing c with
  | zero => exact .of_quiet fun raised => rfl
  | succ count ih =>
    rw [steps]
    by_cases hrunning : c.machine.cpu.running = true
    · rw [if_pos hrunning]
      dsimp only
      cases hresult : (c.machine.stepInstruction trace).result with
      | ok cycles =>
        exact ih.after (fun raised => run_steps_of_some hrunning
          (run_unlessInvalid_of_ok hresult (run_stepInstruction _))) ⟨_, String.append_assoc⟩
      | error f =>
        obtain ⟨e, rfl⟩ := exists_of_stepInstruction_eq_error hresult
        exact .of_invalid fun raised => run_steps_of_none hrunning
          (run_unlessInvalid_of_error hresult (run_stepInstruction _))
    · rw [if_neg hrunning]
      refine .of_quiet fun raised => (run_bind_of_ok run_console).trans ?_
      exact congrArg (EStateM.run · _) (if_neg hrunning)

/-- A loop reports what it would report by itself, besides what was reported before. -/
theorem runFramesFrom_eq (ran : Nat) (journal : List Event) (s : Machine) (n : Nat) :
    Machine.runFramesFrom trace ran journal s n =
      { Machine.runFramesFrom trace ran [] s n with
        journal := (Machine.runFramesFrom trace ran [] s n).journal ++ journal } := by
  induction n generalizing s ran journal with
  | zero => rfl
  | succ n ih =>
    cases hlive : s.isLive with
    | false =>
      rw [Machine.runFramesFrom_of_not_isLive hlive, Machine.runFramesFrom_of_not_isLive hlive]
      rfl
    | true =>
      cases htick : (s.tick trace).result with
      | ok _ =>
        rw [Machine.runFramesFrom_succ_of_ok hlive htick,
          Machine.runFramesFrom_succ_of_ok hlive htick, ih, ih _ (_ ++ []), List.append_nil,
          List.append_assoc]
      | error f =>
        rw [Machine.runFramesFrom_succ_of_error hlive htick,
          Machine.runFramesFrom_succ_of_error hlive htick, List.append_nil]

/-- Frames are run one after the other. -/
theorem run_frames (ran left : Nat) (s : Desk) :
    (Raising.frames trace ran left).run s =
      (Raising.finish (Machine.runFramesFrom trace ran [] s.console.machine left)).run s := by
  induction left generalizing ran s with
  | zero => rfl
  | succ left ih =>
    rw [Raising.frames, run_bind_of_ok run_console]
    cases hlive : s.console.machine.isLive with
    | false =>
      rw [Machine.runFramesFrom_of_not_isLive hlive]
      rfl
    | true =>
      rw [if_pos rfl]
      cases htick : (s.console.machine.tick trace).result with
      | ok _ =>
        rw [Machine.runFramesFrom_succ_of_ok hlive htick, runFramesFrom_eq,
          run_bind_of_ok ((run_tick s).trans (run_finish_of_ok htick)), ih, List.append_nil]
        exact run_finish_after
      | error f =>
        rw [Machine.runFramesFrom_succ_of_error hlive htick, List.append_nil,
          run_bind_of_error ((run_tick s).trans (run_finish_of_error htick))]
        exact (run_finish_of_error (o := ⟨_, _, .error f⟩) rfl).symm

theorem exists_of_runFrames_eq_error {s : Machine} {n : Nat} {f : Fault}
    (h : (s.runFrames trace n).result = .error f) : ∃ e, f = .invalidOpcode e := by
  have hspec := (Machine.runFramesFrom_spec s trace 0 [] n).2.2
  cases hticks : (s.ticks trace n).result with
  | ok _ =>
    rw [hticks] at hspec
    obtain ⟨j, -, hj⟩ := hspec
    cases hj.symm.trans h
  | error f' =>
    rw [hticks] at hspec
    cases hspec.symm.trans h
    exact Machine.exists_of_ticks_eq_error hticks

/-- Frames are run up to a word that is no instruction, which is told. -/
theorem answers_runFrames (count : Int) :
    Answers (Raising.runFrames trace count) () c (.done (runFrames trace c count)) := by
  rw [runFrames]
  cases hresult : (c.machine.runFrames trace count.toNat).result with
  | ok ran =>
    refine .of_quiet fun raised => ?_
    rw [Raising.runFrames,
      run_bind_of_ok (run_unlessInvalid_of_ok hresult (run_frames 0 count.toNat _))]
    rfl
  | error f =>
    obtain ⟨e, rfl⟩ := exists_of_runFrames_eq_error hresult
    refine .of_invalid fun raised => ?_
    rw [Raising.runFrames,
      run_bind_of_ok (run_unlessInvalid_of_error hresult (run_frames 0 count.toNat _))]
    rfl

theorem answers_step : Answers (Raising.step trace rest) () c (.ofExcept c (step trace rest c)) :=
  (reads_count 1).answers fun count => answers_steps count.toNat

theorem answers_runTicks :
    Answers (Raising.runTicks trace rest) () c (.ofExcept c (tick trace rest c)) :=
  (reads_count 1).answers fun count => answers_runFrames count

theorem answers_run : Answers (Raising.run trace rest) () c (.ofExcept c (run trace rest c)) :=
  (reads_count defaultFrames).answers fun count => answers_runFrames count

theorem answers_proceed : Answers (Raising.proceed trace rest) () c (proceed trace rest c) :=
  answers_run.after (fun _ => rfl) (Console.exists_of_printed_eq rfl)

/-! ## Lines -/

/-- A command of the monitor, and whether it leaves the monitor. -/
theorem Answers.leaves {act : Act Unit} {b : Bool} {reply : Reply} (h : Answers act () c reply) :
    Answers (do act; return b) b c reply := by
  cases h with
  | done new h htold => exact .done new (fun raised => run_bind_of_ok (h raised)) htold
  | rejected h hkind hprinted =>
    exact .rejected (fun raised => run_bind_of_error (h raised)) hkind hprinted

theorem answers_update {f : Console → Console} : Answers (update f) () c (.done (f c)) :=
  .of_quiet fun _ => rfl

/-- Every command answers as the command of the monitor does. -/
theorem answers_perform (verb : Verb) :
    Answers (Raising.perform d trace verb rest) verb.stops c (perform d trace verb rest c) := by
  cases verb with
  | load => exact answers_load.leaves
  | asm => exact answers_assemble.leaves
  | dialect => exact answers_dialect.leaves
  | step => exact answers_step.leaves
  | tick => exact answers_runTicks.leaves
  | run => exact answers_run.leaves
  | proceed => exact answers_proceed.leaves
  | setBreakpoint => exact answers_setBreakpoint.leaves
  | removeBreakpoint => exact answers_removeBreakpoint.leaves
  | setRegister => exact answers_setRegister.leaves
  | dump => exact answers_dump.leaves
  | setMemory => exact answers_setMemory.leaves
  | disassemble => exact answers_disassemble.leaves
  | screen => exact answers_screen.leaves
  | key => exact answers_key.leaves
  | reset | resume | registers | status | help => exact answers_update.leaves
  | quit | endOfInput => exact .of_quiet fun raised => rfl

/-! ### Command words -/

/-- The words of the commands that leave the monitor. -/
def leavingWords : List String :=
  ["quit", "exit", "q", "EOF"]

/-- The command word of a line: the letters, digits and underscores that it begins with. -/
def Line.word (line : List Char) : List Char :=
  (Text.trim line).takeWhile isWordChar

/-- A line is blank, or is a command whose word it begins with, or asks for help by a question mark,
or is no command. -/
theorem Line.ofText_cases (line : List Char) :
    (Text.trim line = [] ∧ Line.ofText line = .blank) ∨
      (∃ rest, Line.word line = [] ∧ Line.ofText line = .command .help rest) ∨
      (∃ verb rest, Verb.ofWord? (Line.word line) = some verb ∧
        Line.ofText line = .command verb rest) ∨
      Text.trim line ≠ [] ∧ Verb.ofWord? (Line.word line) = none ∧
        Line.ofText line = .unknown (Text.trim line) := by
  rw [Line.word, Line.ofText]
  split
  · rename_i hblank
    exact .inl ⟨hblank, rfl⟩
  · rename_i topic hmark
    rw [hmark]
    exact .inr (.inl ⟨_, rfl, rfl⟩)
  · rename_i hblank hmark
    rw [Line.ofTrimmed]
    cases hverb : Verb.ofWord? ((Text.trim line).takeWhile Line.isWordChar) with
    | some verb => exact .inr (.inr (.inl ⟨verb, _, rfl, rfl⟩))
    | none => exact .inr (.inr (.inr ⟨hblank, rfl, rfl⟩))

/-- The commands of some words leave the monitor. -/
theorem any_stops_ofWord?_iff {word : List Char} :
    (Verb.ofWord? word).any Verb.stops = true ↔ word ∈ leavingWords.map String.toList := by
  constructor
  · rw [Option.any_eq_true]
    rintro ⟨verb, hverb, hstops⟩
    obtain ⟨before, after, hwords, -⟩ := List.lookup_eq_some_iff.1 hverb
    have hmem : (String.ofList word, verb) ∈ Verb.words := by
      rw [hwords]
      exact List.mem_append_right before List.mem_cons_self
    have hleaving : ∀ p ∈ Verb.words, p.2.stops = true →
        p.1.toList ∈ leavingWords.map String.toList := by decide
    simpa only [String.toList_ofList] using hleaving _ hmem hstops
  · have hleaving : ∀ w ∈ leavingWords.map String.toList,
        (Verb.ofWord? w).any Verb.stops = true := by decide
    exact hleaving word

theorem stops_eq (line : List Char) :
    stops line = (Verb.ofWord? (Line.word line)).any Verb.stops := by
  rw [stops]
  obtain ⟨hblank, hline⟩ | ⟨rest, hword, hline⟩ | ⟨verb, rest, hverb, hline⟩ | ⟨-, hverb, hline⟩ :=
    Line.ofText_cases line
  · rw [hline, Line.word, hblank]
    rfl
  · rw [hline, hword]
    rfl
  · rw [hline, hverb]
    rfl
  · rw [hline, hverb]
    rfl

/-! ### Carrying out lines -/

/-- A line that leaves the monitor is never rejected. -/
theorem stops_of_rejection {e : Rejection}
    (h : (replyTo d trace line c).rejection = some e) : stops line = false := by
  rw [replyTo] at h
  rw [stops]
  cases hline : Line.ofText line with
  | blank => rfl
  | unknown text => rfl
  | command verb rest =>
    rw [hline] at h
    cases verb with
    | quit | endOfInput => cases h
    | _ => rfl

/-- A text that is no command has a first word, so that there is one to show. -/
theorem run_unknown (hblank : Text.trim line ≠ []) (s : Desk) :
    (Raising.unknown (Text.trim line)).run s =
      .ok () { s with console := s.console.print (unknownLine (Text.trim line)) } := by
  obtain ⟨first, text, htext⟩ :=
    List.exists_cons_of_ne_nil (Assembly.trimStart_trim_ne_nil hblank)
  rw [Raising.unknown, htext]
  rfl

/-- Every line is answered as the monitor answers it. -/
theorem answers_dispatch :
    Answers (Raising.dispatch d trace line) (stops line) c (replyTo d trace line c) := by
  rw [Raising.dispatch, stops, replyTo]
  obtain ⟨-, hline⟩ | ⟨rest, -, hline⟩ | ⟨verb, rest, -, hline⟩ | ⟨hblank, -, hline⟩ :=
    Line.ofText_cases line
  · rw [hline]
    exact .of_quiet fun raised => rfl
  · rw [hline]
    exact answers_perform .help
  · rw [hline]
    exact answers_perform verb
  · rw [hline]
    exact .of_quiet fun raised => run_bind_of_ok (run_unknown hblank _)

/-- Whatever is raised is handled and told, and the monitor is left where it would be.  What a line
is rejected for is raised. -/
theorem run_onLine (d : Directory) (trace : Bool) (line : List Char) (c : Console) :
    ∃ raised, (Raising.onLine d trace line).run ⟨c, []⟩ =
        .ok (stops line) ⟨onLine d trace line c, raised⟩ ∧
      (∀ f ∈ raised, c.Told (onLine d trace line c) f.message) ∧
      ∀ e, (replyTo d trace line c).rejection = some e → .rejection e ∈ raised := by
  have hanswer : Answers (Raising.dispatch d trace line) (stops line) c (replyTo d trace line c) :=
    answers_dispatch
  have hstops : ∀ e, (replyTo d trace line c).rejection = some e → stops line = false :=
    fun _ => stops_of_rejection
  rw [Raising.onLine, onLine]
  generalize replyTo d trace line c = reply at hanswer hstops
  cases hanswer with
  | done raised hrun htold =>
    refine ⟨raised, run_handling_of_ok ?_, htold, fun e he => ?_⟩
    · rw [hrun, List.append_nil]
    · cases he
  | @rejected c' e hrun hkind hprinted =>
    refine ⟨[.rejection e], run_handling_of_some (hrun []) (if_pos hkind) ?_, fun f hf => ?_,
      fun e' he => ?_⟩
    · rw [hstops e rfl]
      rfl
    · rw [List.mem_singleton.1 hf]
      exact Console.told_printError.of_printed hprinted
    · cases he
      exact List.mem_singleton_self _

/-- The monitor survives every line.  Nothing that is raised escapes; all of it is told, among it
what the line is rejected for, and so are texts that are no commands.  The session is over exactly
if the command word is one of those that leave the monitor. -/
theorem every_line_survived (d : Directory) (trace : Bool) (line : List Char) (c : Console) :
    ∃ raised stop, (Raising.onLine d trace line).run ⟨c, []⟩ =
        .ok stop ⟨onLine d trace line c, raised⟩ ∧
      (∀ f ∈ raised, c.Told (onLine d trace line c) f.message) ∧
      (∀ e, (replyTo d trace line c).rejection = some e → .rejection e ∈ raised) ∧
      (∀ text, Line.ofText line = .unknown text →
        c.Told (onLine d trace line c) (unknownLine text)) ∧
      (stop = true ↔ Line.word line ∈ leavingWords.map String.toList) := by
  obtain ⟨raised, hrun, htold, hrejected⟩ := run_onLine d trace line c
  refine ⟨raised, stops line, hrun, htold, hrejected, fun text htext => ?_, ?_⟩
  · have hprinted : onLine d trace line c = c.print (unknownLine text) := by
      rw [onLine, replyTo, htext]
      rfl
    rw [hprinted]
    exact Console.told_print
  · rw [stops_eq, any_stops_ofWord?_iff]

end Handled

end ChipEight.Monitor
