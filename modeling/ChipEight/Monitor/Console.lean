/-
The console of the monitor: the machine, what was printed, and what was reported.

A command that cannot be carried out is rejected.  Most commands find that out before they do
anything; those are functions `Console → Except Rejection Console`, which leave nothing behind
when they fail.

Main statement: `machine_print`, printing leaves the machine alone.
-/
import ChipEight.Machine.Load
import ChipEight.Machine.Run
import ChipEight.Text.Words

namespace ChipEight.Monitor

/-- Why a command is rejected. -/
inductive Rejection
  /-- A number is malformed. -/
  | literal (error : Literal.Error)
  /-- The words of the line cannot be told apart. -/
  | words (error : Text.WordsError)
  /-- A source file cannot be read as text. -/
  | source (error : SourceError)
  deriving DecidableEq, Repr

/-- The wording of the rejection. -/
def Rejection.message : Rejection → String
  | literal e => e.message
  | words e => e.message
  | source e => e.message

/-- A machine with what was printed and reported, the latest report first. -/
structure Console where
  /-- The machine. -/
  machine : Machine
  /-- What was printed. -/
  printed : String
  /-- What was reported. -/
  journal : List Event

namespace Console

/-- The console of a machine before anything is printed. -/
def ofMachine (s : Machine) : Console :=
  ⟨s, "", []⟩

/-- Print a line. -/
def print (c : Console) (line : String) : Console :=
  { c with printed := c.printed ++ line ++ "\n" }

/-- Print lines. -/
def printAll (c : Console) (lines : List String) : Console :=
  lines.foldl print c

/-- Print an error. -/
def printError (c : Console) (message : String) : Console :=
  c.print s!"Error: {message}"

/-- The console after an operation of the machine. -/
def after {α : Type} (c : Console) (o : Outcome α) : Console :=
  { c with machine := o.machine, journal := o.journal ++ c.journal }

@[simp] theorem machine_print (c : Console) (line : String) :
    (c.print line).machine = c.machine := rfl

@[simp] theorem machine_printAll (c : Console) (lines : List String) :
    (c.printAll lines).machine = c.machine := by
  unfold printAll
  induction lines generalizing c with
  | nil => rfl
  | cons line lines ih => rw [List.foldl_cons, ih, machine_print]

end Console

/-! ## Arguments -/

/-- The words of the arguments. -/
def wordsOf (rest : List Char) : Except Rejection (List (List Char)) :=
  (Text.Words.split rest).mapError .words

/-- An address: a hexadecimal number, `pc` or `i`.  Capitals do not matter. -/
def addressOf (s : Machine) (word : List Char) : Except Rejection Int :=
  let word := Text.lower (Text.trim word)
  if word = ['p', 'c'] then .ok s.cpu.pc
  else if word = ['i'] then .ok s.cpu.index
  else (Literal.read .hex word).mapError .literal

/-- A number whose radix its mark tells. -/
def numberOf (word : List Char) : Except Rejection Int :=
  (Literal.read .told (Text.trim word)).mapError .literal

/-- A hexadecimal number. -/
def hexOf (word : List Char) : Except Rejection Int :=
  (Literal.read .hex word).mapError .literal

/-- The number that the arguments consist of, or a default if there are none. -/
def countOf (rest : List Char) (default : Int) : Except Rejection Int :=
  if Text.trim rest = [] then .ok default else numberOf rest

/-- The number in the second word, or a default if there is none. -/
def secondCountOf (words : List (List Char)) (default : Int) : Except Rejection Int :=
  match words[1]? with
  | some word => numberOf word
  | none => .ok default

end ChipEight.Monitor
