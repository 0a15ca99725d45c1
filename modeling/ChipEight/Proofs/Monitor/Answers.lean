/-
Reading and answering: the actions of the monitor whose operations raise their failures, compared
with the functions of the monitor.

An action reads what a function tells if it gives the result of the function, or raises why there is
none.  An action answers what a reply tells if it leaves the console of the reply; then what it has
handled on the way is told, and it raises only malformed values for which the command is rejected.

Main definitions:
* `Console.Told`: a message is the last that was printed;
* `Reads`: an action finds out what a function tells;
* `Answers`: an action leaves what a reply tells.

Main statements:
* `Reads.answers`, `Answers.after`: how commands are put together;
* `answers_setMemory`, `answers_disassemble`, `answers_screen`: commands that handle nothing.
-/
import ChipEight.Proofs.Monitor.Raising
import ChipEight.Proofs.Refusals
import ChipEight.Proofs.Rendering

namespace ChipEight.Monitor

open Act

/-! ## What is told -/

/-- Something was printed after the first console, and the last of it is the message. -/
def Console.Told (c c' : Console) (message : String) : Prop :=
  ∃ before, c'.printed = c.printed ++ before ++ message ++ "\n"

namespace Console

variable {c c₁ c₂ : Console} {message : String}

theorem told_print : c.Told (c.print message) message :=
  ⟨"", by rw [String.append_empty]; rfl⟩

theorem told_print_append (before : String) : c.Told (c.print (before ++ message)) message :=
  ⟨before, by simp only [print, String.append_assoc]⟩

theorem told_printError : c.Told (c.printError message) message :=
  told_print_append "Error: "

/-- What is told after more was printed is told. -/
theorem Told.of_printed (h : c₁.Told c₂ message) (hmore : ∃ more, c₁.printed = c.printed ++ more) :
    c.Told c₂ message := by
  obtain ⟨before, hbefore⟩ := h
  obtain ⟨more, hmore⟩ := hmore
  exact ⟨more ++ before, by simp only [hbefore, hmore, String.append_assoc]⟩

/-- Where nothing was printed, nothing more was printed. -/
theorem exists_of_printed_eq (h : c₁.printed = c.printed) :
    ∃ more, c₁.printed = c.printed ++ more :=
  ⟨"", h.trans String.append_empty.symm⟩

end Console

/-! ## Reading and answering -/

section Relations

variable {α β : Type} {act : Act α} {f : α → Act β} {a : α} {b : β} {c c₁ c₂ : Console}
  {r : Except Rejection α} {g : α → Except Rejection β}

/-- The action finds out what a function tells, and leaves the console alone. What it raises is a
malformed value. -/
inductive Reads (act : Act α) (c : Console) : Except Rejection α → Prop
  /-- It is told. -/
  | ok {a : α} : (∀ raised, act.run ⟨c, raised⟩ = .ok a ⟨c, raised⟩) → Reads act c (.ok a)
  /-- It cannot be told. -/
  | error {e : Rejection} :
    (∀ raised, act.run ⟨c, raised⟩ =
      .error (.failure (.rejection e)) ⟨c, .rejection e :: raised⟩) →
    (Failure.rejection e).kind = .value → Reads act c (.error e)

/-- The action leaves what a reply tells, and gives `a`.  What it has raised and handled is told;
what it raises if it is rejected is a malformed value. -/
inductive Answers (act : Act α) (a : α) (c : Console) : Reply → Prop
  /-- It is carried out. -/
  | done {c' : Console} (new : List Failure) :
    (∀ raised, act.run ⟨c, raised⟩ = .ok a ⟨c', new ++ raised⟩) →
    (∀ f ∈ new, c.Told c' f.message) → Answers act a c ⟨c', none⟩
  /-- It is rejected. -/
  | rejected {c' : Console} {e : Rejection} :
    (∀ raised, act.run ⟨c, raised⟩ =
      .error (.failure (.rejection e)) ⟨c', .rejection e :: raised⟩) →
    (Failure.rejection e).kind = .value → (∃ more, c'.printed = c.printed ++ more) →
    Answers act a c ⟨c', some e⟩

/-- What an action does is read off another one that does the same. -/
theorem Reads.of_run {act' : Act α} (h : Reads act' c r)
    (hrun : ∀ raised, act.run ⟨c, raised⟩ = act'.run ⟨c, raised⟩) : Reads act c r := by
  cases h with
  | ok h => exact .ok fun raised => (hrun raised).trans (h raised)
  | error h hkind => exact .error (fun raised => (hrun raised).trans (h raised)) hkind

/-- What comes to another command after something was printed. -/
theorem Answers.after {act' : Act α} {reply : Reply} (h : Answers act' a c₁ reply)
    (hrun : ∀ raised, act.run ⟨c, raised⟩ = act'.run ⟨c₁, raised⟩)
    (hprinted : ∃ more, c₁.printed = c.printed ++ more) : Answers act a c reply := by
  cases h with
  | done new h htold =>
    exact .done new (fun raised => (hrun raised).trans (h raised)) fun f hf =>
      (htold f hf).of_printed hprinted
  | rejected h hkind hmore =>
    obtain ⟨before, hbefore⟩ := hprinted
    obtain ⟨more, hmore⟩ := hmore
    refine .rejected (fun raised => (hrun raised).trans (h raised)) hkind ⟨before ++ more, ?_⟩
    rw [hmore, hbefore, String.append_assoc]

theorem Answers.of_run {act' : Act α} {reply : Reply} (h : Answers act' a c reply)
    (hrun : ∀ raised, act.run ⟨c, raised⟩ = act'.run ⟨c, raised⟩) : Answers act a c reply :=
  h.after hrun (Console.exists_of_printed_eq rfl)

/-- What follows an action that has found something out. -/
theorem run_bind_of_ok {s s' : Desk} (h : act.run s = .ok a s') :
    (act >>= f).run s = (f a).run s' := by
  rw [EStateM.run_bind, h]

theorem run_bind_of_error {s s' : Desk} {x : Break} (h : act.run s = .error x s') :
    (act >>= f).run s = .error x s' := by
  rw [EStateM.run_bind, h]

theorem Reads.bind (h : Reads act c r) (hf : ∀ a, r = .ok a → Reads (f a) c (g a)) :
    Reads (act >>= f) c (r >>= g) := by
  cases h with
  | ok hrun => exact (hf _ rfl).of_run fun raised => run_bind_of_ok (hrun raised)
  | error hrun hkind => exact .error (fun raised => run_bind_of_error (hrun raised)) hkind

theorem Reads.accepted {reply : Reply} (h : Reads act c (.ok a)) (hf : Answers (f a) b c reply) :
    Answers (act >>= f) b c reply := by
  cases h with
  | ok hrun => exact hf.of_run fun raised => run_bind_of_ok (hrun raised)

theorem Reads.rejected {e : Rejection} (h : Reads act c (.error e)) :
    Answers (act >>= f) b c ⟨c, some e⟩ := by
  cases h with
  | error hrun hkind =>
    exact .rejected (fun raised => run_bind_of_error (hrun raised)) hkind
      (Console.exists_of_printed_eq rfl)

/-- A command that begins with finding something out. -/
theorem Reads.answers {next : α → Except Rejection Console} (h : Reads act c r)
    (hf : ∀ a, Answers (f a) b c (.ofExcept c (next a))) :
    Answers (act >>= f) b c (.ofExcept c (r >>= next)) := by
  cases r with
  | ok a => exact h.accepted (hf a)
  | error e => exact h.rejected

/-- A command that raises nothing. -/
theorem Answers.of_quiet (h : ∀ raised, act.run ⟨c, raised⟩ = .ok a ⟨c₁, raised⟩) :
    Answers act a c (.done c₁) :=
  .done [] h fun _ hf => absurd hf List.not_mem_nil

/-- A command that takes a word that is there. -/
theorem Answers.of_word {words : List (List Char)} {place : Nat} {word : List Char}
    {f : List Char → Act β} {reply : Reply} (hword : words[place]? = some word)
    (h : Answers (f word) b c reply) : Answers (Raising.wordAt words place >>= f) b c reply := by
  refine h.of_run fun raised => run_bind_of_ok ?_
  rw [Raising.wordAt, hword]
  rfl

/-- A command that has raised and handled one failure. -/
theorem Answers.of_told (e : Failure)
    (h : ∀ raised, act.run ⟨c, raised⟩ = .ok a ⟨c₁, e :: raised⟩) (htold : c.Told c₁ e.message) :
    Answers act a c (.done c₁) := by
  refine .done [e] h fun e' he => ?_
  rwa [List.mem_singleton.1 he]

end Relations

section Handlers

variable {α : Type} {act act' : Act α} {handler : Failure → Option (Act α)} {a : α} {s s' : Desk}
  {f : Failure}

theorem run_handling_of_ok (h : act.run s = .ok a s') :
    (handling act handler).run s = .ok a s' := by
  rw [run_handling, h]

/-- What the handler takes goes to the handler. -/
theorem run_handling_of_some {r : EStateM.Result Break Desk α}
    (h : act.run s = .error (.failure f) s') (hf : handler f = some act')
    (hanswer : act'.run s' = r) : (handling act handler).run s = r := by
  rw [run_handling, h]
  dsimp only
  rw [hf, Option.getD_some, hanswer]

/-- What the handler does not take goes on. -/
theorem run_handling_of_none (h : act.run s = .error (.failure f) s') (hf : handler f = none) :
    (handling act handler).run s = .error (.failure f) s' := by
  rw [run_handling, h]
  dsimp only
  rw [hf]
  rfl

end Handlers

/-! ## Arguments -/

section Arguments

variable {α : Type} {c : Console} {rest word : List Char} {words : List (List Char)}
  {r : Except Rejection α}

theorem reads_orRaise (h : ∀ e, r = .error e → (Failure.rejection e).kind = .value) :
    Reads (orRaise .rejection r) c r := by
  cases r with
  | ok a => exact .ok fun _ => rfl
  | error e => exact .error (fun _ => rfl) (h e rfl)

theorem kind_of_literal {l : Except Literal.Error Int} {e : Rejection}
    (h : l.mapError Rejection.literal = .error e) : (Failure.rejection e).kind = .value := by
  cases l with
  | ok v => cases h
  | error e' =>
    cases h
    rfl

theorem reads_wordsOf : Reads (Raising.wordsOf rest) c (wordsOf rest) := by
  refine reads_orRaise fun e he => ?_
  rw [wordsOf] at he
  cases hs : Text.Words.split rest with
  | ok words =>
    rw [hs] at he
    cases he
  | error e' =>
    rw [hs] at he
    cases he
    rfl

theorem reads_wordAt {place : Nat} (h : words[place]? = some word) :
    Reads (Raising.wordAt words place) c (.ok word) := by
  rw [Raising.wordAt, h]
  exact .ok fun _ => rfl

theorem reads_address : Reads (Raising.address word) c (addressOf c.machine word) := by
  refine Reads.of_run (reads_orRaise fun e he => ?_) fun raised => rfl
  rw [addressOf] at he
  split at he
  · cases he
  · split at he
    · cases he
    · exact kind_of_literal he

theorem reads_number : Reads (Raising.number word) c (numberOf word) :=
  reads_orRaise fun _ he => kind_of_literal he

theorem reads_hex : Reads (Raising.hex word) c (hexOf word) :=
  reads_orRaise fun _ he => kind_of_literal he

theorem reads_count (default : Int) :
    Reads (Raising.count rest default) c (countOf rest default) := by
  rw [Raising.count, countOf]
  split
  · exact .ok fun _ => rfl
  · exact reads_number

theorem reads_secondCount (default : Int) :
    Reads (Raising.secondCount words default) c (secondCountOf words default) := by
  rw [Raising.secondCount, secondCountOf]
  cases hsecond : words[1]? with
  | none =>
    rw [if_neg (Nat.not_lt.2 (List.getElem?_eq_none_iff.1 hsecond))]
    exact .ok fun _ => rfl
  | some word =>
    obtain ⟨hlength, -⟩ := List.getElem?_eq_some_iff.1 hsecond
    rw [if_pos hlength]
    exact (reads_wordAt hsecond).bind (g := fun word => numberOf word) fun _ h => by
      cases h
      exact reads_number

end Arguments

/-! ## Commands that handle nothing -/

section Plain

variable {c : Console} {rest : List Char}

theorem answers_setBreakpoint :
    Answers (Raising.setBreakpoint rest) () c (.ofExcept c (setBreakpoint rest c)) := by
  rw [Raising.setBreakpoint, setBreakpoint]
  split
  · cases haddresses : c.machine.breakpoints.toList
    all_goals
      refine .of_quiet fun raised => ?_
      rw [run_bind_of_ok run_console, haddresses]
      rfl
  · refine reads_address.answers fun a => ?_
    exact .of_quiet fun raised => rfl

theorem answers_removeBreakpoint :
    Answers (Raising.removeBreakpoint rest) () c (.ofExcept c (removeBreakpoint rest c)) := by
  rw [Raising.removeBreakpoint, removeBreakpoint]
  split
  · exact .of_quiet fun raised => rfl
  · refine reads_address.answers fun a => ?_
    exact .of_quiet fun raised => rfl

theorem answers_setRegister :
    Answers (Raising.setRegister rest) () c (.ofExcept c (setRegister rest c)) := by
  refine reads_wordsOf.answers fun words => ?_
  rcases words with _ | ⟨name, _ | ⟨valueText, more⟩⟩
  · exact .of_quiet fun raised => rfl
  · exact .of_quiet fun raised => rfl
  · rw [if_neg (by simp)]
    refine .of_word rfl (.of_word rfl ?_)
    refine reads_number.answers fun v => ?_
    dsimp only
    cases hset : withRegister c.machine.cpu (Text.lower name) v
    all_goals
      refine .of_quiet fun raised => ?_
      rw [run_bind_of_ok run_console, hset]
      rfl

theorem answers_dump : Answers (Raising.dump rest) () c (.ofExcept c (dump rest c)) := by
  refine reads_wordsOf.answers fun words => ?_
  cases words with
  | nil => exact .of_quiet fun raised => rfl
  | cons word more =>
    refine .of_word rfl ?_
    refine reads_address.answers fun a => ?_
    refine (reads_secondCount 64).answers fun n => ?_
    exact .of_quiet fun raised => rfl

theorem answers_key : Answers (Raising.key rest) () c (.ofExcept c (key rest c)) := by
  refine reads_wordsOf.answers fun words => ?_
  rcases words with _ | ⟨action, _ | ⟨word, _ | ⟨third, more⟩⟩⟩
  · exact .of_quiet fun raised => rfl
  · exact .of_quiet fun raised => rfl
  · rw [if_neg (by simp)]
    refine .of_word rfl ?_
    dsimp only
    split
    · refine .of_word rfl (reads_hex.answers fun k => ?_)
      split
      · exact .of_quiet fun raised => rfl
      · exact .of_quiet fun raised => rfl
    · exact .of_quiet fun raised => rfl
  · rw [if_pos (by simp)]
    exact .of_quiet fun raised => rfl

/-! ### Setting memory -/

/-- The console with another memory in its machine. -/
def Console.withMemory (c : Console) (memory : Memory) : Console :=
  { c with machine := { c.machine with cpu := { c.machine.cpu with memory } } }

/-- Bytes are written up to the first word that shows none, which is raised. -/
theorem run_writeWords (a : Int) (words : List (List Char)) (raised : List Failure) :
    (Raising.writeWords a words).run ⟨c, raised⟩ =
      match writeWords c.machine.cpu.memory a words with
      | (memory, none) => .ok () ⟨c.withMemory memory, raised⟩
      | (memory, some e) =>
        .error (.failure (.rejection e)) ⟨c.withMemory memory, .rejection e :: raised⟩ := by
  induction words generalizing a c with
  | nil => rfl
  | cons word words ih =>
    rw [Raising.writeWords, writeWords, Raising.hex]
    cases hexOf word with
    | error e => rfl
    | ok v =>
      exact ih (c := c.withMemory (c.machine.cpu.memory.write a (UInt8.ofInt v))) (a + 1)

/-- A word that is refused as a byte is a malformed value. -/
theorem kind_of_writeWords {m : Memory} {a : Int} {words : List (List Char)} {e : Rejection}
    (h : (writeWords m a words).2 = some e) : (Failure.rejection e).kind = .value := by
  obtain ⟨bad, -, hbad⟩ := exists_of_writeWords_eq_some h
  exact kind_of_literal hbad

theorem answers_setMemory :
    Answers (Raising.setMemory rest) () c ⟨(setMemory rest c).1, (setMemory rest c).2⟩ := by
  have hread : Reads (Raising.wordsOf rest) c (wordsOf rest) := reads_wordsOf
  rw [Raising.setMemory, setMemory]
  cases hwords : wordsOf rest with
  | error e => exact (hwords ▸ hread).rejected
  | ok words =>
    refine (hwords ▸ hread).accepted ?_
    rcases words with _ | ⟨word, _ | ⟨first, more⟩⟩
    · exact .of_quiet fun raised => rfl
    · exact .of_quiet fun raised => rfl
    · rw [if_neg (by simp)]
      refine .of_word rfl ?_
      have hplace : Reads (Raising.address word) c (addressOf c.machine word) := reads_address
      dsimp only
      cases haddress : addressOf c.machine word with
      | error e => exact (haddress ▸ hplace).rejected
      | ok a =>
        refine (haddress ▸ hplace).accepted ?_
        have hwrite := run_writeWords (c := c) a (first :: more)
        dsimp only
        cases hwritten : writeWords c.machine.cpu.memory a (first :: more) with
        | mk memory rejection =>
          rw [hwritten] at hwrite
          cases rejection with
          | none => exact .of_quiet fun raised => run_bind_of_ok (hwrite raised)
          | some e =>
            exact .rejected (fun raised => run_bind_of_error (hwrite raised))
              (kind_of_writeWords (congrArg Prod.snd hwritten)) (Console.exists_of_printed_eq rfl)

/-! ### Disassembling -/

/-- The text of an instruction shows operands that the instruction has. -/
theorem run_checkText (word : Int) (s : Desk) : (Raising.checkText word).run s = .ok () s := by
  rw [Raising.checkText]
  cases hdecode : Instruction.decode word with
  | error e => rfl
  | ok i =>
    obtain ⟨o, -, -, rfl⟩ := Instruction.decode_eq_ok hdecode
    dsimp only
    rw [(Instruction.suited_ofFields o.opcode _).text_eq]
    rfl

/-- The instructions are shown one after the other. -/
theorem run_instructions (a : Int) (left : Nat) (raised : List Failure) :
    (Raising.instructions a left).run ⟨c, raised⟩ =
      .ok () ⟨c.printAll ((List.range left).map fun (k : Nat) =>
        instructionLine c.machine (a + 2 * k)), raised⟩ := by
  induction left generalizing a c with
  | zero => rfl
  | succ left ih =>
    have hlines : (List.range (left + 1)).map (fun (k : Nat) =>
          instructionLine c.machine (a + 2 * k)) =
        instructionLine c.machine a ::
          (List.range left).map fun (k : Nat) => instructionLine c.machine (a + 2 + 2 * k) := by
      rw [List.range_succ_eq_map, List.map_cons, List.map_map]
      refine congrArg₂ List.cons (congrArg _ (by simp)) (List.map_congr_left fun k _ => ?_)
      refine congrArg (instructionLine c.machine) ?_
      rw [Nat.succ_eq_add_one]
      omega
    rw [hlines, Raising.instructions, run_bind_of_ok run_console,
      run_bind_of_ok (run_checkText _ _), run_bind_of_ok (run_print _)]
    exact ih (c := c.print (instructionLine c.machine a)) (a + 2)

theorem answers_disassemble :
    Answers (Raising.disassemble rest) () c (.ofExcept c (disassemble rest c)) := by
  refine reads_wordsOf.answers fun words => ?_
  -- Whatever the address is, so many instructions are shown from there on.
  have hshown (a : Int) : Answers (do
        let n ← Raising.secondCount words 16
        Raising.instructions a n.toNat) () c (.ofExcept c do
        let count ← secondCountOf words 16
        return c.printAll
          ((List.range count.toNat).map fun (k : Nat) => instructionLine c.machine (a + 2 * k))) :=
    (reads_secondCount 16).answers fun n =>
      .of_quiet fun raised => run_instructions a n.toNat raised
  cases words with
  | nil =>
    refine (hshown c.machine.cpu.pc).of_run fun raised => ?_
    rw [if_pos rfl, run_bind_of_ok run_console, run_bind_of_ok (EStateM.run_pure _ _)]
  | cons word more => exact .of_word rfl (reads_address.answers fun a => hshown a)

/-! ### The screen -/

theorem answers_screen : Answers Raising.screen () c (.done (screen c)) := by
  refine .of_quiet fun raised => ?_
  rw [Raising.screen, run_bind_of_ok run_console, run_bind_of_ok (run_print _),
    Screen.renderText_pixels, orRaise_ok, run_bind_of_ok (EStateM.run_pure _ _),
    Screen.splitOn_text]
  rfl

end Plain

end ChipEight.Monitor
