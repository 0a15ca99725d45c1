/-
Refused lines.

A line of the monitor can be refused: for a number or a quotation that is malformed, for a file that
cannot be read, for a program that is too large, for a dialect that does not exist.  A refused line
says why, and it should leave the machine as it was.  Two commands do not keep to that: one leaves
a breakpoint before it looks at the number of frames, the other writes each byte into memory before
it looks at the next.

Main definitions:
* `Monitor.Refusal`: the line is refused, with a message;
* `Monitor.leftBehind`: the machine that a refused line leaves behind.

Main statements:
* `Monitor.writeWords_fst`: the bytes that are written before one is refused;
* `Monitor.onLine_of_refusal`: what a refused line does;
* `Monitor.refused_lines_leave`: all commands but two leave the machine as it was;
* `Monitor.refused_lines_change`: the other two do not.
-/
import ChipEight.Monitor.Session
import ChipEight.Proofs.Programs

namespace ChipEight.Monitor

variable {d : Directory} {trace : Bool} {verb : Verb} {rest line : List Char} {c : Console}
  {e : Rejection} {message : String}

/-! ## Bytes -/

/-- The bytes that words show, up to the first word that shows none. -/
def leadingBytes : List (List Char) → List UInt8
  | [] => []
  | word :: words =>
    match hexOf word with
    | .ok v => UInt8.ofInt v :: leadingBytes words
    | .error _ => []

/-- The bytes before a word that shows none are written, and nothing else. -/
theorem writeWords_fst (m : Memory) (address : Int) (words : List (List Char)) :
    (writeWords m address words).1 = m.writeBlock address (leadingBytes words) := by
  induction words generalizing m address with
  | nil => rfl
  | cons word words ih =>
    rw [writeWords, leadingBytes]
    cases hexOf word with
    | ok v => exact ih (m.write address (UInt8.ofInt v)) (address + 1)
    | error e => rfl

/-- The word that is refused is the one behind those that are written. -/
theorem exists_of_writeWords_eq_some {m : Memory} {address : Int} {words : List (List Char)}
    (h : (writeWords m address words).2 = some e) :
    ∃ bad, words[(leadingBytes words).length]? = some bad ∧ hexOf bad = .error e := by
  induction words generalizing m address with
  | nil => cases h
  | cons word words ih =>
    rw [writeWords] at h
    rw [leadingBytes]
    cases hword : hexOf word with
    | ok v =>
      rw [hword] at h
      exact ih h
    | error e' =>
      rw [hword] at h
      cases h
      exact ⟨word, rfl, hword⟩

/-! ## Commands -/

/-- The machine after some words are written into its memory. -/
def written (s : Machine) (address : Int) (words : List (List Char)) : Machine :=
  { s with cpu := { s.cpu with memory := s.cpu.memory.writeBlock address (leadingBytes words) } }

/-- The machine that a command leaves behind when it is refused. -/
def remains (s : Machine) (rest : List Char) : Verb → Machine
  | .proceed => s.resume
  | .setMemory =>
    match wordsOf rest with
    | .ok (word :: words) =>
      match addressOf s word with
      | .ok address => written s address words
      | .error _ => s
    | _ => s
  | _ => s

theorem remains_of_ne (hp : verb ≠ .proceed) (hs : verb ≠ .setMemory) (s : Machine) :
    remains s rest verb = s := by
  cases verb with
  | proceed => exact absurd rfl hp
  | setMemory => exact absurd rfl hs
  | _ => rfl

theorem remains_setMemory {word : List Char} {words : List (List Char)} {address : Int} {s : Machine}
    (hwords : wordsOf rest = .ok (word :: words)) (haddress : addressOf s word = .ok address) :
    remains s rest .setMemory = written s address words := by
  rw [remains, hwords]
  dsimp only
  rw [haddress]

/-- A refusal to set memory is due to the words or to the address, and then nothing is done, or it
is due to a byte, and then the bytes before it are set. -/
theorem setMemory_cases (h : (setMemory rest c).2 = some e) :
    (setMemory rest c).1 = c ∧ remains c.machine rest .setMemory = c.machine ∨
      ∃ word words address, wordsOf rest = .ok (word :: words) ∧
        addressOf c.machine word = .ok address ∧
        (writeWords c.machine.cpu.memory address words).2 = some e ∧
        (setMemory rest c).1 = { c with machine := written c.machine address words } := by
  revert h
  rw [setMemory, remains]
  rcases wordsOf rest with e' | _ | ⟨word, _ | ⟨first, more⟩⟩
  · intro _
    exact .inl ⟨rfl, rfl⟩
  · intro h
    cases h
  · intro h
    cases h
  · dsimp only
    cases haddress : addressOf c.machine word with
    | error e' =>
      intro _
      exact .inl ⟨rfl, rfl⟩
    | ok address =>
      dsimp only
      cases hrejected : (writeWords c.machine.cpu.memory address (first :: more)).2 with
      | none =>
        intro h
        cases h
      | some e' =>
        intro h
        cases h
        refine .inr ⟨word, first :: more, address, rfl, haddress, hrejected, ?_⟩
        rw [written, ← writeWords_fst]

theorem setMemory_of_rejected (h : (setMemory rest c).2 = some e) :
    (setMemory rest c).1 = { c with machine := remains c.machine rest .setMemory } := by
  obtain ⟨hconsole, hmachine⟩ | ⟨word, words, address, hwords, haddress, -, hconsole⟩ :=
    setMemory_cases h
  · rw [hmachine, hconsole]
  · rw [remains_setMemory hwords haddress, hconsole]

/-- What is left behind by a command that is rejected. -/
theorem console_of_rejected (h : (perform d trace verb rest c).rejection = some e) :
    (perform d trace verb rest c).console = { c with machine := remains c.machine rest verb } := by
  cases verb with
  | load | asm | step | tick | run | setBreakpoint | removeBreakpoint | setRegister | dump
  | disassemble | key => exact Reply.console_ofExcept h
  | proceed => exact Reply.console_ofExcept h
  | setMemory => exact setMemory_of_rejected h
  | _ => cases h

/-! ## Lines -/

/-- The machine that a line leaves behind when it is refused. -/
def leftBehind (s : Machine) (line : List Char) : Machine :=
  match Line.ofText line with
  | .command verb rest => remains s rest verb
  | _ => s

/-- The line is refused, for the reason that the message gives. -/
inductive Refusal (d : Directory) (trace : Bool) (line : List Char) (c : Console) : String → Prop
  /-- The arguments are malformed, or a source file is no text. -/
  | rejected {e : Rejection} : (replyTo d trace line c).rejection = some e →
    Refusal d trace line c e.message
  /-- The image cannot be had or does not fit into memory. -/
  | load {rest path : List Char} {more : List (List Char)} {e : SourceError} :
    Line.ofText line = .command .load rest → wordsOf rest = .ok (path :: more) →
    c.machine.loadRaw d path = .error e → Refusal d trace line c e.message
  /-- The program that was assembled does not fit into memory. -/
  | asm {rest path source : List Char} {more : List (List Char)} {image : Image}
      {e : Memory.ProgramTooLarge} :
    Line.ofText line = .command .asm rest → wordsOf rest = .ok (path :: more) →
    sourceText d path more = .ok (.ok source) →
    Assembly.assemble source Memory.programStart = .ok image →
    c.machine.load image = .error e → Refusal d trace line c e.message
  /-- There is no such dialect. -/
  | dialect {rest : List Char} {e : Dialect.UnknownPreset} :
    Line.ofText line = .command .dialect rest → Text.trim rest ≠ [] →
    Dialect.preset rest = .error e → Refusal d trace line c e.message

theorem load_of_error {path : List Char} {more : List (List Char)} {e : SourceError}
    (hwords : wordsOf rest = .ok (path :: more)) (hload : c.machine.loadRaw d path = .error e) :
    load d rest c = .ok (c.printError e.message) := by
  rw [load, hwords]
  dsimp only [bind, Except.bind]
  rw [hload]
  rfl

theorem assemble_of_source {path source : List Char} {more : List (List Char)}
    (hwords : wordsOf rest = .ok (path :: more))
    (hsource : sourceText d path more = .ok (.ok source)) :
    assemble d rest c = .ok (assembleAndLoad source c) := by
  rw [assemble, hwords]
  dsimp only [bind, Except.bind]
  rw [hsource]
  rfl

theorem assembleAndLoad_of_error {source : List Char} {image : Image} {e : Memory.ProgramTooLarge}
    (himage : Assembly.assemble source Memory.programStart = .ok image)
    (hload : c.machine.load image = .error e) :
    assembleAndLoad source c = c.printError e.message := by
  rw [assembleAndLoad, himage]
  dsimp only
  rw [hload]

/-- A refused line prints why, and leaves behind what its command leaves. -/
theorem onLine_of_refusal (h : Refusal d trace line c message) :
    onLine d trace line c = { c with machine := leftBehind c.machine line }.printError message := by
  cases h with
  | rejected h =>
    rw [onLine, h]
    refine congrArg (Console.printError · _) ?_
    rw [replyTo] at h ⊢
    rw [leftBehind]
    cases hline : Line.ofText line with
    | command verb rest =>
      rw [hline] at h
      exact console_of_rejected h
    | blank =>
      rw [hline] at h
      cases h
    | unknown text =>
      rw [hline] at h
      cases h
  | load hline hwords hload =>
    rw [leftBehind, hline]
    refine onLine_of_done hline ?_
    rw [perform, load_of_error hwords hload]
    rfl
  | asm hline hwords hsource himage hload =>
    rw [leftBehind, hline]
    refine onLine_of_done hline ?_
    rw [perform, assemble_of_source hwords hsource, assembleAndLoad_of_error himage hload]
    rfl
  | dialect hline hrest hpreset =>
    rw [leftBehind, hline]
    refine onLine_of_done hline ?_
    rw [perform, dialect, if_neg hrest, hpreset]
    rfl

/-- A line that sets memory is refused by its command. -/
theorem exists_of_refusal_setMemory (hline : Line.ofText line = .command .setMemory rest)
    (h : Refusal d trace line c message) :
    ∃ e, (setMemory rest c).2 = some e ∧ message = e.message := by
  cases h with
  | @rejected e h =>
    rw [replyTo, hline] at h
    exact ⟨e, h, rfl⟩
  | load hline' =>
    rw [hline] at hline'
    cases hline'
  | asm hline' =>
    rw [hline] at hline'
    cases hline'
  | dialect hline' =>
    rw [hline] at hline'
    cases hline'

/-- A refused line says why, and leaves the machine as it was, but for two commands.  The one that
leaves a breakpoint and runs has left the breakpoint.  The one that sets memory has set the bytes
before the malformed one, which its message is about. -/
theorem refused_lines_leave (h : Refusal d trace line c message) :
    onLine d trace line c = { c with machine := leftBehind c.machine line }.printError message ∧
    ((∀ rest, Line.ofText line ≠ .command .proceed rest) →
      (∀ rest, Line.ofText line ≠ .command .setMemory rest) →
      leftBehind c.machine line = c.machine) ∧
    (∀ rest, Line.ofText line = .command .proceed rest →
      leftBehind c.machine line = c.machine.resume) ∧
    ∀ rest, Line.ofText line = .command .setMemory rest →
      leftBehind c.machine line = c.machine ∨
        ∃ word words address bad e, wordsOf rest = .ok (word :: words) ∧
          addressOf c.machine word = .ok address ∧
          words[(leadingBytes words).length]? = some bad ∧ hexOf bad = .error e ∧
          message = e.message ∧ leftBehind c.machine line = written c.machine address words := by
  refine ⟨onLine_of_refusal h, ?_, ?_, ?_⟩
  · intro hproceed hset
    rw [leftBehind]
    cases hline : Line.ofText line with
    | command verb rest =>
      refine remains_of_ne ?_ ?_ c.machine
      · rintro rfl
        exact hproceed rest hline
      · rintro rfl
        exact hset rest hline
    | blank => rfl
    | unknown text => rfl
  · intro rest hline
    rw [leftBehind, hline]
    rfl
  · intro rest hline
    rw [leftBehind, hline]
    obtain ⟨e, hrejected, rfl⟩ := exists_of_refusal_setMemory hline h
    obtain ⟨-, hmachine⟩ | ⟨word, words, address, hwords, haddress, hwrite, -⟩ :=
      setMemory_cases hrejected
    · exact .inl hmachine
    · obtain ⟨bad, hbad, hhex⟩ := exists_of_writeWords_eq_some hwrite
      exact .inr ⟨word, words, address, bad, e, hwords, haddress, hbad, hhex, rfl,
        remains_setMemory hwords haddress⟩

/-- A number of steps that is malformed. -/
theorem refused_lines_leave_of_malformed_count :
    let c := Console.ofMachine (Machine.fresh .chip8 1000000 1)
    Refusal ⟨[]⟩ false "step abc".toList c "invalid literal for int() with base 0: 'abc'" ∧
      (onLine ⟨[]⟩ false "step abc".toList c).machine = c.machine := by
  intro c
  have hline : Line.ofText "step abc".toList = .command .step "abc".toList := by decide
  have hrefused : Refusal ⟨[]⟩ false "step abc".toList c _ :=
    .rejected (e := .literal (.malformed .told "abc".toList)) rfl
  obtain ⟨honLine, hkept, -⟩ := refused_lines_leave hrefused
  refine ⟨hrefused, ?_⟩
  rw [honLine]
  refine hkept (fun rest h => ?_) (fun rest h => ?_)
  · rw [hline] at h
    cases h
  · rw [hline] at h
    cases h

/-- The byte before a malformed one is set, and a breakpoint is left in spite of a malformed number
of frames. -/
theorem refused_lines_change :
    let s := Machine.fresh .chip8 1000000 1
    let c := Console.ofMachine s
    let line := "setmem 300 aa zz".toList
    let c' := Console.ofMachine { s with halted := true }
    let line' := "continue x".toList
    (Refusal ⟨[]⟩ false line c "invalid literal for int() with base 16: 'zz'" ∧
        c.machine.cpu.memory.read 0x300 = 0 ∧
        (onLine ⟨[]⟩ false line c).machine.cpu.memory.read 0x300 = 0xAA) ∧
      Refusal ⟨[]⟩ false line' c' "invalid literal for int() with base 0: 'x'" ∧
        c'.machine.halted = true ∧ (onLine ⟨[]⟩ false line' c').machine.halted = false := by
  intro s c line c' line'
  have hset : Refusal ⟨[]⟩ false line c _ :=
    .rejected (e := .literal (.malformed .hex "zz".toList)) rfl
  have hproceed : Refusal ⟨[]⟩ false line' c' _ :=
    .rejected (e := .literal (.malformed .told "x".toList)) rfl
  have hline : Line.ofText line = .command .setMemory "300 aa zz".toList := by decide
  have hwords : wordsOf "300 aa zz".toList = .ok ["300".toList, "aa".toList, "zz".toList] := rfl
  have hwritten : leftBehind s line = written s 0x300 ["aa".toList, "zz".toList] := by
    rw [leftBehind, hline]
    exact remains_setMemory hwords rfl
  refine ⟨⟨hset, Memory.read_fresh (by decide), ?_⟩, hproceed, rfl, ?_⟩
  · rw [onLine_of_refusal hset]
    show (leftBehind s line).cpu.memory.read 0x300 = 0xAA
    rw [hwritten]
    exact Memory.read_write_self _ _ _
  · rw [onLine_of_refusal hproceed]
    rfl

end ChipEight.Monitor
