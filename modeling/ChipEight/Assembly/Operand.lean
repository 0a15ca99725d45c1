/-
Assembling one instruction: its operands, the form that they fit, and their values.

A value is a label or a number, and a label wins.  In keywords and mnemonics capitals do not
matter, and a keyword may hold spaces.

Main statement: `encode_of_instruction`, an instruction that is assembled can be encoded.
-/
import ChipEight.Assembly.Error
import ChipEight.Instruction.Form
import ChipEight.Numeral.Literal
import ChipEight.Text.Case
import ChipEight.Text.Trim

namespace ChipEight.Assembly

/-! ## Labels and values -/

/-- The addresses of labels. -/
abbrev Labels := List (List Char × Int)

/-- The value of a token: the address of a label, or a number. -/
def value (labels : Labels) (token : List Char) : Except Cause Int :=
  match labels.lookup token with
  | some address => .ok address
  | none =>
    match Literal.read .told token with
    | .ok n => .ok n
    | .error _ => .error (.noValue token)

/-! ## Operands -/

/-- An operand as it is written. -/
inductive Operand
  /-- A register. -/
  | register (x : Nat)
  /-- A keyword. -/
  | keyword (keyword : Keyword)
  /-- A value. -/
  | value (token : List Char)
  deriving DecidableEq, Repr

namespace Operand

/-- The register that is written so. -/
def registerOfText? : List Char → Option Nat
  | [v, d] => if v = 'v' ∨ v = 'V' then Literal.digitValue? 16 d else none
  | _ => none

/-- The operand that is written so. -/
def ofText (token : List Char) : Operand :=
  match registerOfText? token with
  | some x => .register x
  | none =>
    match Keyword.ofText? ((token.flatMap Text.capitals).filter (· ≠ ' ')) with
    | some k => .keyword k
    | none => .value token

/-- Whether the operand fits a slot. -/
def fits : Slot → Operand → Bool
  | .register _, .register _ => true
  | .offset, .register _ => true
  | .keyword k, .keyword k' => k == k'
  | .number _, .value _ => true
  | _, _ => false

/-- The number that the operand contributes to the instruction, if any. -/
def number? (labels : Labels) : Operand → Except Cause (Option Int)
  | .register x => .ok (some x)
  | .keyword _ => .ok none
  | .value token => (Assembly.value labels token).map some

end Operand

/-! ## Forms -/

/-- Whether operands fit the slots of a form. -/
def slotsFit : List Slot → List Operand → Bool
  | [], [] => true
  | s :: ss, o :: os => Operand.fits s o && slotsFit ss os
  | _, _ => false

/-- The form with a single operand, in which a shift may be written. -/
def shortForm? (o : Opcode) : Option Form :=
  match o with
  | .shr | .shl => some ⟨o.form.mnemonic, [.register .x]⟩
  | _ => none

/-- Whether an instruction may be written with a mnemonic and operands. -/
def Form.admits (f : Form) (mnemonic : List Char) (operands : List Operand) : Bool :=
  f.mnemonic == mnemonic && slotsFit f.slots operands

/-- Whether the opcode may be written with a mnemonic and operands. -/
def isWritten (mnemonic : List Char) (operands : List Operand) (o : Opcode) : Bool :=
  Form.admits o.form mnemonic operands ||
    (shortForm? o).any fun f => Form.admits f mnemonic operands

/-- The opcode that is written with a mnemonic and operands. -/
def opcode? (mnemonic : List Char) (operands : List Operand) : Option Opcode :=
  Opcode.all.find? (isWritten mnemonic operands)

/-! ## Instructions -/

/-- The numbers that operands contribute, in their order. -/
def numbers (labels : Labels) : List Operand → Except Cause (List Int)
  | [] => .ok []
  | o :: os =>
    match o.number? labels with
    | .error e => .error e
    | .ok n =>
      match numbers labels os with
      | .error e => .error e
      | .ok ns => .ok (n.toList ++ ns)

/-- A byte that is written as a small negative number. -/
def wrapByte (f : Field) (v : Int) : Int :=
  if f = .kk ∧ -0x80 ≤ v ∧ v < 0 then v + 0x100 else v

/-- The operands that the opcode takes from the numbers that are written: a shift of one register
is a shift of the register into itself, a jump with offset has the high digit of its address as
its register, and small negative bytes wrap. -/
def arguments (o : Opcode) (numbers : List Int) : Except Cause (List Int) :=
  match o, numbers with
  | .shr, [x] => .ok [x, x]
  | .shl, [x] => .ok [x, x]
  | .jpOffset, [x, address] =>
    let digit := address / 256 % 16
    if x = 0 ∨ x = digit then .ok [digit, address] else .error (.offsetRegister x address)
  | o, ns => .ok (List.zipWith wrapByte o.fields ns)

/-- The instruction of the opcode with the numbers that are written, if it can be encoded. -/
def build (o : Opcode) (numbers : List Int) : Except Cause Instruction :=
  match arguments o numbers with
  | .error e => .error e
  | .ok args =>
    match (Instruction.mk o args).encode with
    | .ok _ => .ok ⟨o, args⟩
    | .error e => .error (.encoding e)

/-- The instruction that is written in a text. -/
def instruction (labels : Labels) (text : List Char) : Except Cause Instruction :=
  let (word, rest) := Text.firstWord text
  let operands := (Text.items rest).map Operand.ofText
  match opcode? (Text.lower word) operands with
  | none => .error (.unknownForm text)
  | some o =>
    match numbers labels operands with
    | .error e => .error e
    | .ok ns => build o ns

/-! ## What is assembled can be encoded -/

theorem encode_of_build {o : Opcode} {ns : List Int} {i : Instruction} (h : build o ns = .ok i) :
    ∃ word, i.encode = .ok word := by
  unfold build at h
  split at h
  · cases h
  · split at h
    · cases h; exact ⟨_, ‹_›⟩
    · cases h

theorem encode_of_instruction {labels : Labels} {text : List Char} {i : Instruction}
    (h : instruction labels text = .ok i) : ∃ word, i.encode = .ok word := by
  unfold instruction at h
  dsimp only at h
  split at h
  · cases h
  · split at h
    · cases h
    · exact encode_of_build h

end ChipEight.Assembly
