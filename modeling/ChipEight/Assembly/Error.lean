/-
What can be wrong with assembly text.
-/
import ChipEight.Instruction.Encoding
import ChipEight.Text.Quoted

namespace ChipEight.Assembly

/-- What is wrong with a line. -/
inductive Cause
  /-- A label is defined a second time. -/
  | duplicateLabel (name : List Char)
  /-- A value is neither a label nor a number. -/
  | noValue (token : List Char)
  /-- The origin that is asked for lies behind the address that is reached. -/
  | originBehind (target address : Int)
  /-- No instruction is written so. -/
  | unknownForm (text : List Char)
  /-- The register of a jump with offset is neither `V0` nor the high digit of its address. -/
  | offsetRegister (register address : Int)
  /-- The instruction cannot be encoded. -/
  | encoding (error : Instruction.EncodeError)
  deriving DecidableEq, Repr

/-- The wording of the cause. -/
def Cause.message : Cause → String
  | duplicateLabel name => s!"Duplicate label: {String.ofList name}"
  | noValue token => s!"Undefined label or bad number: {Text.quoted token}"
  | originBehind target address =>
    s!".org {String.ofList (Hex.marked 0 target)} is behind {String.ofList (Hex.marked 0 address)}"
  | unknownForm text => s!"Unknown instruction form: {Text.quoted text}"
  | offsetRegister register address =>
    s!"JP V{String.ofList (Hex.capital 0 register)}, {String.ofList (Hex.marked 5 address)}: " ++
      "register must be V0 or the address high nibble"
  | encoding e => e.message

/-- A fault of a line of assembly text. -/
structure Error where
  /-- The number of the line. -/
  line : Int
  /-- What is wrong with it. -/
  cause : Cause
  deriving DecidableEq, Repr

/-- The wording of the error. -/
def Error.message (e : Error) : String :=
  s!"Line {e.line}: {e.cause.message}"

end ChipEight.Assembly
