/-
Loading programs from files.

Main statement: `loadSized_eq_ok_iff`, the size that is told is that of the program.
-/
import ChipEight.Source
import ChipEight.Machine.Basic

namespace ChipEight.Machine

/-- The machine after a program is loaded, and the size of the program. -/
def loadSized (s : Machine) (program : Image) : Except SourceError (Machine × Nat) :=
  match s.load program with
  | .ok s => .ok (s, program.length)
  | .error e => .error (.tooLarge e)

/-- Load the bytes of a file as they stand. -/
def loadRaw (s : Machine) (d : Directory) (path : List Char) : Except SourceError (Machine × Nat) :=
  match d.read path with
  | .ok program => s.loadSized program
  | .error e => .error (.path e)

/-- Load the program in a file, which is assembled if its name says so. -/
def loadProgram (s : Machine) (d : Directory) (path : List Char) :
    Except SourceError (Machine × Nat) :=
  match d.readProgram path with
  | .ok program => s.loadSized program
  | .error e => .error e

theorem loadSized_eq_ok_iff {s s' : Machine} {program : Image} {n : Nat} :
    s.loadSized program = .ok (s', n) ↔ s.load program = .ok s' ∧ n = program.length := by
  unfold loadSized
  cases s.load program <;> simp [eq_comm]

end ChipEight.Machine
