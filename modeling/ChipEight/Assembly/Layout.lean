/-
The layout of a program: which address each statement and each label has.

The layout is found without assembling anything, since the size of a statement can be told from
its form.  An origin may refer to the labels that stand before it.
-/
import ChipEight.Assembly.Operand
import ChipEight.Assembly.Statement

namespace ChipEight.Assembly

/-- A statement with the number and the text of its line, and its address. -/
structure Placed where
  /-- The number of the line. -/
  line : Nat
  /-- The line without labels and comments. -/
  text : List Char
  /-- The statement. -/
  statement : Statement
  /-- Where the statement stands. -/
  address : Int
  deriving DecidableEq, Repr

/-- What is known of a program after some of its lines. -/
structure Layout where
  /-- The address that is reached. -/
  address : Int
  /-- The labels, the latest first. -/
  labels : Labels
  /-- The statements, the latest first. -/
  placed : List Placed
  deriving DecidableEq, Repr

namespace Layout

/-- The layout of a program that begins at an address. -/
def start (base : Int) : Layout :=
  ⟨base, [], []⟩

/-- The layout with labels for the address that is reached. -/
def define (l : Layout) : List (List Char) → Except Cause Layout
  | [] => .ok l
  | name :: names =>
    if (l.labels.lookup name).isSome then .error (.duplicateLabel name)
    else define { l with labels := (name, l.address) :: l.labels } names

/-- The address after a statement. -/
def addressAfter (l : Layout) : Statement → Except Cause Int
  | .origin target =>
    match value l.labels target with
    | .error e => .error e
    -- Only labels that stand before an origin are known here.
    | .ok a => if a < l.address then .error (.originBehind a l.address) else .ok a
  | .bytes operands => .ok (l.address + operands.length)
  | .words operands => .ok (l.address + 2 * operands.length)
  | .instruction _ => .ok (l.address + 2)

/-- The layout with one more statement, or the same layout if the text is empty. -/
def place (l : Layout) (line : Nat) (text : List Char) : Except Cause Layout :=
  if text = [] then .ok l
  else
    let statement := Statement.ofText text
    match l.addressAfter statement with
    | .error e => .error e
    | .ok a => .ok { l with address := a, placed := ⟨line, text, statement, l.address⟩ :: l.placed }

/-- The layout with one more line. -/
def addLine (l : Layout) (line : Nat) (raw : List Char) : Except Cause Layout :=
  let (names, text) := peelLabels (withoutComment raw)
  match l.define names with
  | .error e => .error e
  | .ok l => l.place line text

/-- The layout with more lines, of which the first has the number `line`. -/
def addLines (l : Layout) (line : Nat) : List (List Char) → Except Error Layout
  | [] => .ok l
  | raw :: rest =>
    match l.addLine line raw with
    | .error e => .error ⟨line, e⟩
    | .ok l => l.addLines (line + 1) rest

/-- The layout of a source text that begins at an address. -/
def ofSource (source : List Char) (base : Int) : Except Error Layout :=
  (start base).addLines 1 (source.splitOn '\n')

end Layout

end ChipEight.Assembly
