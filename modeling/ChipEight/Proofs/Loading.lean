/-
Loading.

A program is loaded altogether or not at all.  The machine refuses a program that is too large
before it remembers it, and the memory refuses it once more before it is copied there; between the
two the program is remembered already.  Here this is done in place, on a machine whose memory is a
list that nothing keeps at its size: what was done before a failure stays, and a program that is
copied takes the place of as many cells as it has bytes, or of as many as there are.

Main definitions:
* `FlatMachine`, `Machine.flat`: a machine whose processor is laid out flat;
* `Loading.load`, `Loading.rawFile`, `Loading.programFile`: loading in place;
* `Machine.Loaded`: what a machine is after a program was loaded;
* `Machine.AllOrNothing`: a program is loaded altogether or not at all.

Main statements:
* `Memory.toList_writeBlock`: what the memory holds after a block was written;
* `FlatMachine.length_memory_copy`: when the memory keeps its size;
* `Machine.run_load`, `Machine.run_rawFile`, `Machine.run_programFile`: loading in place does what
  loading does, and fails before it has done anything;
* `Machine.load_all_or_nothing`: the three ways to load a program.
-/
import ChipEight.Machine.Load
import ChipEight.Proofs.Flat.Basic
import ChipEight.Proofs.Programs
import ChipEight.Proofs.Resets

namespace ChipEight

/-! ## Slices -/

/-- The list in which the elements from one place up to another give way to others. -/
def splice {α : Type} (s : List α) (start stop : Nat) (t : List α) : List α :=
  s.take start ++ t ++ s.drop stop

theorem map_splice {α β : Type} (f : α → β) (s : List α) (start stop : Nat) (t : List α) :
    (splice s start stop t).map f = splice (s.map f) start stop (t.map f) := by
  simp only [splice, List.map_append, List.map_take, List.map_drop]

/-- A list keeps its length where as many elements come as go.  A slice that reaches beyond the end
makes the list longer. -/
theorem length_splice {α : Type} (s t : List α) (start : Nat) (h : start ≤ s.length) :
    (splice s start (start + t.length) t).length = max s.length (start + t.length) := by
  simp only [splice, List.length_append, List.length_take, List.length_drop]
  omega

/-- What a block of bytes leaves in memory, unless it reaches beyond the end. -/
theorem Memory.toList_writeBlock {m : Memory} {a : Nat} {s : List UInt8}
    (h : a + s.length ≤ 4096) :
    (m.writeBlock a s).cells.toList = splice m.cells.toList a (a + s.length) s := by
  induction s generalizing m a with
  | nil => simp [writeBlock, splice]
  | cons b s ih =>
    rw [List.length_cons] at h
    have hcell : (cell (a : Int)).val = a := by
      simp only [cell]
      omega
    have hwrite : (m.write a b).cells.toList = m.cells.toList.set a b := by
      rw [write, Vector.toList_set, hcell]
    have hlt : a < m.cells.toList.length := by
      rw [Vector.length_toList]
      omega
    have hsucc : (a : Int) + 1 = (a + 1 : Nat) := rfl
    rw [writeBlock, hsucc, ih (by omega), hwrite, splice, splice, List.length_cons,
      List.drop_set_of_lt (by omega), List.take_set, List.take_succ_eq_append_getElem hlt]
    have hlen : (m.cells.toList.take a).length = a := by
      rw [List.length_take]
      omega
    rw [List.set_append_right _ _ (by omega), hlen]
    simp [Nat.add_comm 1, Nat.add_assoc]

/-! ## Machines laid out flat -/

/-- A machine whose processor is laid out flat. -/
structure FlatMachine where
  /-- The processor. -/
  cpu : Flat
  /-- The cycles in a second. -/
  clock : Int
  /-- The seed of the random numbers. -/
  seed : Int
  /-- Whether the machine waits at a breakpoint. -/
  halted : Bool
  /-- The breakpoints. -/
  breakpoints : Breakpoints
  /-- The program that was loaded last. -/
  program : Image
  /-- The cycles of single steps since the timers last ticked. -/
  stepCycles : Int

/-- The machine with its processor laid out flat. -/
def Machine.flat (s : Machine) : FlatMachine where
  cpu := s.cpu.flat
  clock := s.clock
  seed := s.seed
  halted := s.halted
  breakpoints := s.breakpoints
  program := s.program
  stepCycles := s.stepCycles

namespace FlatMachine

/-- The machine that remembers a program. -/
def remember (f : FlatMachine) (program : Image) : FlatMachine :=
  { f with program }

/-- The machine after a program takes the place of as many cells as it has bytes. -/
def copy (f : FlatMachine) (program : Image) : FlatMachine :=
  { f with cpu := { f.cpu with
      memory := splice f.cpu.memory Memory.programStart (Memory.programStart + program.length)
        (program.map fun b => (b.toNat : Int)) } }

/-- A program that reaches beyond the end of the memory would make the memory longer. -/
theorem length_memory_copy {f : FlatMachine} (h : Memory.programStart ≤ f.cpu.memory.length)
    (program : Image) :
    (f.copy program).cpu.memory.length =
      max f.cpu.memory.length (Memory.programStart + program.length) := by
  have hlength := length_splice f.cpu.memory (program.map fun b => (b.toNat : Int)) _ h
  rwa [List.length_map] at hlength

end FlatMachine

namespace Machine

variable {s s' : Machine} {program : Image}

theorem length_le_of_load (h : s.load program = .ok s') :
    program.length ≤ Memory.programLimit := by
  refine Nat.not_lt.1 fun hlarge => ?_
  rw [load_eq_error hlarge] at h
  cases h

/-- A program that fits is remembered and copied to its place. -/
theorem flat_of_load (h : s.load program = .ok s') :
    s'.flat = (s.flat.remember program).copy program := by
  have hfits : program.length ≤ Memory.programLimit := length_le_of_load h
  have hplace : Memory.programStart + program.length ≤ 4096 := by
    rw [Memory.programLimit, Memory.programStart] at hfits
    rw [Memory.programStart]
    omega
  rw [load_eq hfits] at h
  cases h
  simp only [flat, Cpu.flat, FlatMachine.remember, FlatMachine.copy, Flat.numbers,
    Memory.toList_writeBlock hplace, map_splice]

end Machine

/-! ## Loading in place -/

/-- An action on a machine that may fail; what it has done before it fails stays. -/
abbrev Loading := EStateM SourceError FlatMachine

namespace Loading

variable {f : FlatMachine}

/-- Refuse a program that is too large. -/
def checkSize (program : Image) : Loading Unit :=
  if Memory.programLimit < program.length then throw (.tooLarge ⟨program.length⟩) else return ()

/-- Copy a program into memory, unless it is too large. -/
def toMemory (program : Image) : Loading Unit := do
  checkSize program
  modify (·.copy program)

/-- Load a program. -/
def load (program : Image) : Loading Unit := do
  checkSize program
  modify (·.remember program)
  toMemory program

/-- Load the bytes of a file as they stand: their number. -/
def rawFile (d : Directory) (path : List Char) : Loading Nat := do
  let program ← ofExcept ((d.read path).mapError .path)
  load program
  return program.length

/-- Load the program in a file, which is assembled if its name says so: the size of the program. -/
def programFile (d : Directory) (path : List Char) : Loading Nat := do
  if Directory.isAssembly path then
    let text ← ofExcept (d.readText path)
    let program ← ofExcept ((Assembly.assemble text Memory.programStart).mapError .assembly)
    load program
    return program.length
  else rawFile d path

theorem run_checkSize (program : Image) :
    (checkSize program).run f =
      if Memory.programLimit < program.length then .error (.tooLarge ⟨program.length⟩) f
      else .ok () f := by
  rw [checkSize]
  split <;> rfl

theorem run_toMemory (program : Image) :
    (toMemory program).run f =
      if Memory.programLimit < program.length then .error (.tooLarge ⟨program.length⟩) f
      else .ok () (f.copy program) := by
  rw [toMemory, EStateM.run_bind, run_checkSize]
  by_cases hlarge : Memory.programLimit < program.length
  · rw [if_pos hlarge, if_pos hlarge]
  · rw [if_neg hlarge, if_neg hlarge]
    rfl

/-- The second check never fails, so that no program is remembered that is not copied. -/
theorem run_load (program : Image) :
    (load program).run f =
      if Memory.programLimit < program.length then .error (.tooLarge ⟨program.length⟩) f
      else .ok () ((f.remember program).copy program) := by
  rw [load, EStateM.run_bind, run_checkSize]
  by_cases hlarge : Memory.programLimit < program.length
  · rw [if_pos hlarge, if_pos hlarge]
  · rw [if_neg hlarge, if_neg hlarge]
    dsimp only
    rw [EStateM.run_bind, EStateM.run_modify]
    dsimp only
    rw [run_toMemory, if_neg hlarge]

end Loading

namespace Machine

variable (s : Machine)

/-- How an action ends that finds the machine `s` and does what loading does: where that fails, the
machine is left as it was. -/
def inPlace (s : Machine) :
    Except SourceError (Machine × Nat) → EStateM.Result SourceError FlatMachine Nat
  | .ok (s', n) => .ok n s'.flat
  | .error e => .error e s.flat

theorem run_load (program : Image) :
    (Loading.load program).run s.flat =
      match s.load program with
      | .ok s' => .ok () s'.flat
      | .error e => .error (.tooLarge e) s.flat := by
  rw [Loading.run_load]
  by_cases hlarge : Memory.programLimit < program.length
  · rw [if_pos hlarge, load_eq_error hlarge]
  · have hload := load_eq (s := s) (Nat.not_lt.1 hlarge)
    rw [if_neg hlarge, ← flat_of_load hload, hload]

theorem run_loadSized (program : Image) :
    (do Loading.load program; return program.length : Loading Nat).run s.flat =
      s.inPlace (s.loadSized program) := by
  rw [EStateM.run_bind, run_load, loadSized]
  cases s.load program <;> rfl

theorem run_rawFile (d : Directory) (path : List Char) :
    (Loading.rawFile d path).run s.flat = s.inPlace (s.loadRaw d path) := by
  rw [Loading.rawFile, EStateM.run_bind, loadRaw]
  cases d.read path with
  | error e => rfl
  | ok program => exact run_loadSized s program

theorem run_programFile (d : Directory) (path : List Char) :
    (Loading.programFile d path).run s.flat = s.inPlace (s.loadProgram d path) := by
  rw [Loading.programFile, loadProgram, Directory.readProgram]
  by_cases hname : Directory.isAssembly path = true
  · rw [if_pos hname, if_pos hname, EStateM.run_bind]
    cases d.readText path with
    | error e => rfl
    | ok text =>
      have hread : (ofExcept (.ok text) : Loading (List Char)).run s.flat = .ok text s.flat := rfl
      rw [hread]
      dsimp only
      rw [EStateM.run_bind]
      cases Assembly.assemble text Memory.programStart with
      | error e => rfl
      | ok program => exact run_loadSized s program
  · rw [if_neg hname, if_neg hname, run_rawFile, loadRaw]
    cases d.read path <;> rfl

/-! ## All or nothing -/

/-- What the machine `s` is after a program was loaded. -/
structure Loaded (s : Machine) (program : Image) (s' : Machine) : Prop where
  inside : ∀ (k : Nat) (h : k < program.length),
    s'.cpu.memory.read (0x200 + k : Nat) = program[k]
  outside : ∀ a : Nat, a < 0x200 ∨ 0x200 + program.length ≤ a ∧ a < 4096 →
    s'.cpu.memory.read a = s.cpu.memory.read a
  size : s'.flat.cpu.memory.length = 4096
  rest : s' = { s with program, cpu := { s.cpu with memory := s'.cpu.memory } }

theorem loaded_of_load {s' : Machine} {program : Image} (h : s.load program = .ok s') :
    s.Loaded program s' := by
  have hfits : program.length ≤ 0xE00 := length_le_of_load h
  have hsize : s'.flat.cpu.memory.length = 4096 := by
    have hcells : s.flat.cpu.memory.length = 4096 := Flat.length_numbers _
    have hstart : Memory.programStart ≤ s.flat.cpu.memory.length := by
      rw [hcells]
      decide
    have hlength := FlatMachine.length_memory_copy (f := s.flat.remember program) hstart program
    have hmemory : (s.flat.remember program).cpu.memory.length = 4096 := hcells
    rw [flat_of_load h, hlength, hmemory, Memory.programStart]
    omega
  rw [load_eq hfits] at h
  cases h
  refine ⟨fun k hk => ?_, fun a ha => ?_, hsize, rfl⟩
  · exact Memory.read_writeBlock (by omega) Memory.programStart hk
  · refine Memory.read_writeBlock_of_ne fun k hk heq => ?_
    rw [Memory.cell_eq_cell_iff, Memory.programStart] at heq
    omega

/-- The program that a source gives is loaded altogether, and its size is told, or there is none or
it is too large, and nothing happens. -/
def AllOrNothing (s : Machine) (source : Except SourceError Image)
    (loaded : Except SourceError (Machine × Nat)) (loading : Loading Nat) : Prop :=
  match source with
  | .ok program =>
    if program.length ≤ 0xE00 then
      ∃ s', s.Loaded program s' ∧ loaded = .ok (s', program.length) ∧
        loading.run s.flat = .ok program.length s'.flat
    else
      loaded = .error (.tooLarge ⟨program.length⟩) ∧
        loading.run s.flat = .error (.tooLarge ⟨program.length⟩) s.flat
  | .error e => loaded = .error e ∧ loading.run s.flat = .error e s.flat

theorem allOrNothing {source : Except SourceError Image}
    {loaded : Except SourceError (Machine × Nat)} {loading : Loading Nat}
    (hloaded : loaded = source.bind s.loadSized) (hrun : loading.run s.flat = s.inPlace loaded) :
    s.AllOrNothing source loaded loading := by
  rw [AllOrNothing.eq_def, hrun, hloaded]
  cases source with
  | error e => exact ⟨rfl, rfl⟩
  | ok program =>
    dsimp only
    rw [Except.bind, loadSized]
    by_cases hfits : program.length ≤ 0xE00
    · have hload := load_eq (s := s) hfits
      rw [if_pos hfits, hload]
      exact ⟨_, s.loaded_of_load hload, rfl, rfl⟩
    · rw [if_neg hfits, load_eq_error (Nat.lt_of_not_le hfits)]
      exact ⟨rfl, rfl⟩

/-- Whether from bytes, from the bytes of a file or from a file that may have to be assembled, a
program is loaded altogether or not at all. -/
theorem load_all_or_nothing (program : Image) (d : Directory) (path : List Char) :
    (if program.length ≤ 0xE00 then
      ∃ s', s.Loaded program s' ∧ s.load program = .ok s' ∧
        (Loading.load program).run s.flat = .ok () s'.flat
    else
      s.load program = .error ⟨program.length⟩ ∧
        (Loading.load program).run s.flat = .error (.tooLarge ⟨program.length⟩) s.flat) ∧
    s.AllOrNothing ((d.read path).mapError .path) (s.loadRaw d path) (Loading.rawFile d path) ∧
    s.AllOrNothing (d.readProgram path) (s.loadProgram d path) (Loading.programFile d path) := by
  refine ⟨?_, s.allOrNothing ?_ (s.run_rawFile d path),
    s.allOrNothing ?_ (s.run_programFile d path)⟩
  · rw [run_load]
    by_cases hfits : program.length ≤ 0xE00
    · have hload := load_eq (s := s) hfits
      rw [if_pos hfits, hload]
      exact ⟨_, s.loaded_of_load hload, rfl, rfl⟩
    · rw [if_neg hfits, load_eq_error (Nat.lt_of_not_le hfits)]
      exact ⟨rfl, rfl⟩
  · rw [loadRaw]
    cases d.read path <;> rfl
  · rw [loadProgram]
    cases d.readProgram path <;> rfl

end Machine

end ChipEight
