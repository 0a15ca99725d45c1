/-
Resets.

Whatever has befallen a machine, a reset leaves it as it would be if it had just been built and the
program that was loaded last had been loaded then; only the breakpoints are kept.  So the program is
all that a machine has to remember, and it is followed through the history: a program counts as
loaded if it could be had and fits into memory, from wherever it came.

Main definitions:
* `Machine.Incident`: what can befall a machine;
* `Machine.Incident.loaded?`: the program that is loaded then;
* `Machine.lastLoaded`: the program that was loaded last.

Main statements:
* `Monitor.program_onLine`: the program after a line of the monitor;
* `Machine.program_through`: the program after a history;
* `Machine.clock_and_seed_through`: the clock and the seed stay;
* `Machine.reset_eq_load`: what a reset leaves.
-/
import ChipEight.Proofs.Ranges

namespace ChipEight

/-! ## Programs that fit -/

/-- The program, unless it is too large. -/
def Memory.admitted? (program : Image) : Option Image :=
  if program.length ≤ programLimit then some program else none

namespace Machine

theorem load_eq {s : Machine} {program : Image} (h : program.length ≤ Memory.programLimit) :
    s.load program = .ok { s with
      program, cpu := { s.cpu with
        memory := s.cpu.memory.writeBlock Memory.programStart program } } := by
  rw [load, Memory.load, if_neg (Nat.not_lt.2 h)]

theorem load_eq_error {s : Machine} {program : Image} (h : Memory.programLimit < program.length) :
    s.load program = .error ⟨program.length⟩ := by
  rw [load, Memory.load, if_pos h]

/-- A program that is too large leaves the one that was there. -/
theorem program_load (s : Machine) (program : Image) :
    ((s.load program).toOption.getD s).program = (Memory.admitted? program).getD s.program := by
  rw [Memory.admitted?]
  split
  · rename_i h
    rw [load_eq h]
    rfl
  · rename_i h
    rw [load_eq_error (Nat.lt_of_not_le h)]
    rfl

theorem program_loadSized (s : Machine) (program : Image) :
    (((s.loadSized program).toOption.map (·.1)).getD s).program =
      (Memory.admitted? program).getD s.program := by
  rw [← program_load, loadSized]
  cases s.load program <;> rfl

theorem program_loadRaw (s : Machine) (d : Directory) (path : List Char) :
    (((s.loadRaw d path).toOption.map (·.1)).getD s).program =
      ((d.read path).toOption.bind Memory.admitted?).getD s.program := by
  rw [loadRaw]
  cases d.read path with
  | ok program => exact program_loadSized s program
  | error e => rfl

theorem program_loadProgram (s : Machine) (d : Directory) (path : List Char) :
    (((s.loadProgram d path).toOption.map (·.1)).getD s).program =
      ((d.readProgram path).toOption.bind Memory.admitted?).getD s.program := by
  rw [loadProgram]
  cases d.readProgram path with
  | ok program => exact program_loadSized s program
  | error e => rfl

/-- What does not load a program leaves the program, the clock and the seed alone. -/
theorem robust_bookkeeping (Q : Image → Int → Int → Prop) :
    Robust fun s => Q s.program s.clock s.seed where
  perform _ h := h
  tickTimers h := h
  halted _ h := h
  stepCycles _ h := h
  reset _ h := h
  setBreakpoint _ h := h
  removeBreakpoint _ h := h
  clearBreakpoints h := h
  keyDown _ h := h
  keyUp _ h := h
  withRegister _ h := h
  write _ _ h := h

theorem robust_program (program : Image) : Robust fun s => s.program = program :=
  robust_bookkeeping fun p _ _ => p = program

/-- The clock and the seed stay as they are, whatever is loaded. -/
theorem invariant_clock_and_seed (clock seed : Int) :
    Invariant fun s => s.clock = clock ∧ s.seed = seed where
  toRobust := robust_bookkeeping fun _ c i => c = clock ∧ i = seed
  load hl h := by
    obtain ⟨memory, rfl⟩ := exists_load_eq hl
    exact h

end Machine

/-! ## Lines of the monitor -/

namespace Monitor

/-- The program that the arguments of a command name, if the command loads one and it can be
had. -/
def programNamed? (d : Directory) (rest : List Char) : Verb → Option Image
  | .load =>
    match wordsOf rest with
    | .ok (path :: _) => (d.read path).toOption
    | _ => none
  | .asm =>
    match wordsOf rest with
    | .ok (path :: more) =>
      match sourceText d path more with
      | .ok (.ok source) => (Assembly.assemble source Memory.programStart).toOption
      | _ => none
    | _ => none
  | _ => none

/-- The program that a line names. -/
def programOf? (d : Directory) (line : List Char) : Option Image :=
  match Line.ofText line with
  | .command verb rest => programNamed? d rest verb
  | _ => none

variable {d : Directory} {trace : Bool} {rest : List Char}

theorem program_load (c : Console) :
    (Reply.ofExcept c (load d rest c)).console.machine.program =
      ((programNamed? d rest .load).bind Memory.admitted?).getD c.machine.program := by
  rw [load, programNamed?]
  cases wordsOf rest with
  | error e => rfl
  | ok words =>
    cases words with
    | nil => rfl
    | cons path more =>
      refine Eq.trans ?_ (Machine.program_loadRaw c.machine d path)
      dsimp only [bind, Except.bind]
      cases c.machine.loadRaw d path <;> rfl

theorem program_assembleAndLoad (source : List Char) (c : Console) :
    (assembleAndLoad source c).machine.program =
      ((Assembly.assemble source Memory.programStart).toOption.bind Memory.admitted?).getD
        c.machine.program := by
  rw [assembleAndLoad]
  cases Assembly.assemble source Memory.programStart with
  | error e => rfl
  | ok image =>
    refine Eq.trans ?_ (Machine.program_load c.machine image)
    dsimp only
    cases c.machine.load image <;> rfl

theorem program_assemble (c : Console) :
    (Reply.ofExcept c (assemble d rest c)).console.machine.program =
      ((programNamed? d rest .asm).bind Memory.admitted?).getD c.machine.program := by
  rw [assemble, programNamed?]
  cases wordsOf rest with
  | error e => rfl
  | ok words =>
    cases words with
    | nil => rfl
    | cons path more =>
      dsimp only [bind, Except.bind]
      rcases sourceText d path more with e | message | source
      · rfl
      · rfl
      · exact program_assembleAndLoad source c

theorem program_perform (verb : Verb) (c : Console) :
    (perform d trace verb rest c).console.machine.program =
      ((programNamed? d rest verb).bind Memory.admitted?).getD c.machine.program := by
  by_cases hload : verb = .load
  · subst hload
    exact program_load c
  · by_cases hasm : verb = .asm
    · subst hasm
      exact program_assemble c
    · have hnone : programNamed? d rest verb = none := by
        rw [programNamed?]
        · exact hload
        · exact hasm
      rw [hnone]
      exact (Machine.robust_program _).monitorPerform d trace hload hasm rfl

theorem program_onLine (line : List Char) (c : Console) :
    (onLine d trace line c).machine.program =
      ((programOf? d line).bind Memory.admitted?).getD c.machine.program := by
  rw [machine_onLine, replyTo, programOf?]
  cases Line.ofText line with
  | command verb rest => exact program_perform verb c
  | _ => rfl

end Monitor

namespace Machine

open Monitor (Console)

/-! ## Histories -/

/-- What can befall a machine. -/
inductive Incident
  /-- Something is done to it. -/
  | operation (o : Operation)
  /-- The bytes of a file are loaded. -/
  | loadRaw (files : Directory) (path : List Char)
  /-- The program in a file is loaded. -/
  | loadProgram (files : Directory) (path : List Char)
  /-- Frames are run while it is live. -/
  | frames (n : Nat)
  /-- It is run until the program stops. -/
  | untilStopped (most : Int)
  /-- A debugger changes its processor, in whatever way. -/
  | debug (change : Cpu → Cpu)

namespace Incident

/-- The program that is to be loaded, if it can be had. -/
def program? : Incident → Option Image
  | operation (.load program) => some program
  | operation (.line files text) => Monitor.programOf? files text
  | loadRaw files path => (files.read path).toOption
  | loadProgram files path => (files.readProgram path).toOption
  | _ => none

/-- The program that is loaded. -/
def loaded? (i : Incident) : Option Image :=
  i.program?.bind Memory.admitted?

end Incident

/-- The machine after an incident. -/
def undergo (trace : Bool) (s : Machine) : Incident → Machine
  | .operation o => s.apply trace o
  | .loadRaw files path => ((s.loadRaw files path).toOption.map (·.1)).getD s
  | .loadProgram files path => ((s.loadProgram files path).toOption.map (·.1)).getD s
  | .frames n => (s.runFrames trace n).machine
  | .untilStopped most => (s.runUntilStopped trace most).machine
  | .debug change => { s with cpu := change s.cpu }

/-- The machine after a history of incidents, the first of them first. -/
def through (trace : Bool) (s : Machine) (history : List Incident) : Machine :=
  history.foldl (undergo trace) s

/-- The program that was loaded last, the empty one if there was none. -/
def lastLoaded (history : List Incident) : Image :=
  ((history.filterMap Incident.loaded?).getLast?).getD []

section Through

variable (trace : Bool) (s : Machine)

theorem program_apply (o : Operation) :
    (s.apply trace o).program = (Incident.operation o).loaded?.getD s.program := by
  have hkept := robust_program s.program
  cases o with
  | load program => exact program_load s program
  | line files text => exact Monitor.program_onLine text (Console.ofMachine s)
  | tick => exact hkept.tick trace rfl
  | step => exact hkept.stepInstruction trace rfl
  | _ => rfl

/-- The program after an incident is the one that is loaded then, or else the one that was there. -/
theorem program_undergo (i : Incident) : (s.undergo trace i).program = i.loaded?.getD s.program := by
  have hkept := robust_program s.program
  cases i with
  | operation o => exact program_apply trace s o
  | loadRaw files path => exact program_loadRaw s files path
  | loadProgram files path => exact program_loadProgram s files path
  | frames n => exact hkept.runFrames trace n rfl
  | untilStopped most => exact hkept.runUntilStopped trace most rfl
  | debug change => rfl

/-- The program after a history is the one that was loaded last. -/
theorem program_through (history : List Incident) :
    (s.through trace history).program =
      ((history.filterMap Incident.loaded?).getLast?).getD s.program := by
  induction history generalizing s with
  | nil => rfl
  | cons i history ih =>
    change ((s.undergo trace i).through trace history).program = _
    rw [ih, program_undergo]
    cases hi : i.loaded? with
    | none => rw [List.filterMap_cons_none hi, Option.getD_none]
    | some program =>
      rw [List.filterMap_cons_some hi, List.getLast?_cons, Option.getD_some, Option.getD_some]

theorem clock_and_seed_undergo (i : Incident) :
    (s.undergo trace i).clock = s.clock ∧ (s.undergo trace i).seed = s.seed := by
  have hkept := invariant_clock_and_seed s.clock s.seed
  have hs : s.clock = s.clock ∧ s.seed = s.seed := ⟨rfl, rfl⟩
  cases i with
  | operation o => exact hkept.apply trace o hs
  | loadRaw files path =>
    rw [undergo]
    cases hload : s.loadRaw files path with
    | ok r => exact hkept.loadRaw hload hs
    | error e => exact hs
  | loadProgram files path =>
    rw [undergo]
    cases hload : s.loadProgram files path with
    | ok r => exact hkept.loadProgram hload hs
    | error e => exact hs
  | frames n => exact hkept.runFrames trace n hs
  | untilStopped most => exact hkept.runUntilStopped trace most hs
  | debug change => exact hs

theorem clock_and_seed_through (history : List Incident) :
    (s.through trace history).clock = s.clock ∧ (s.through trace history).seed = s.seed := by
  induction history generalizing s with
  | nil => exact ⟨rfl, rfl⟩
  | cons i history ih =>
    obtain ⟨hclock, hseed⟩ := ih (s.undergo trace i)
    obtain ⟨hclock', hseed'⟩ := clock_and_seed_undergo trace s i
    exact ⟨hclock.trans hclock', hseed.trans hseed'⟩

end Through

/-- Programs that were loaded fit into memory. -/
theorem length_lastLoaded_le (history : List Incident) :
    (lastLoaded history).length ≤ Memory.programLimit := by
  rw [lastLoaded]
  cases hlast : (history.filterMap Incident.loaded?).getLast? with
  | none => exact Nat.zero_le _
  | some program =>
    obtain ⟨i, -, hi⟩ := List.mem_filterMap.1 (List.mem_of_getLast? hlast)
    obtain ⟨image, -, hfits⟩ := Option.bind_eq_some_iff.1 hi
    rw [Memory.admitted?] at hfits
    split at hfits
    · rename_i hle
      cases hfits
      exact hle
    · cases hfits

/-- A reset builds a machine anew and loads the program, if it fits. -/
theorem exists_load_eq_reset {s : Machine} (h : s.program.length ≤ Memory.programLimit)
    (d : Option Dialect) :
    ∃ t, (fresh (d.getD s.cpu.dialect) s.clock s.seed).load s.program = .ok t ∧
      s.reset d = { t with breakpoints := s.breakpoints } :=
  ⟨_, load_eq h, rfl⟩

/-- After any history, a reset leaves the machine that is newly built with the same clock and seed,
with the dialect that is asked for or else the present one, and with the program that was loaded
last, except that the breakpoints are kept.  So whatever follows has the same outcome on both. -/
theorem reset_eq_load (trace : Bool) (dialect : Dialect) (clock seed : Int)
    (history : List Incident) (d : Option Dialect) :
    let s := (fresh dialect clock seed).through trace history
    ∃ t, (fresh (d.getD s.cpu.dialect) clock seed).load (lastLoaded history) = .ok t ∧
      s.reset d = { t with breakpoints := s.breakpoints } ∧
      ∀ further, (s.reset d).through trace further =
        { t with breakpoints := s.breakpoints }.through trace further := by
  intro s
  have hprogram : s.program = lastLoaded history := program_through trace _ history
  obtain ⟨hclock, hseed⟩ : s.clock = clock ∧ s.seed = seed := clock_and_seed_through trace _ history
  have hfits : s.program.length ≤ Memory.programLimit := by
    rw [hprogram]
    exact length_lastLoaded_le history
  obtain ⟨t, hload, hreset⟩ := exists_load_eq_reset hfits d
  rw [hclock, hseed, hprogram] at hload
  exact ⟨t, hload, hreset, fun further => congrArg (through trace · further) hreset⟩

end Machine

end ChipEight
