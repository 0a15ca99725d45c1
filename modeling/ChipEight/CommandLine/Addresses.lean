/-
Addresses on the command line: breakpoints, and bytes to be put into memory.

Both are lists separated by commas; blank items do not count.  All numbers are hexadecimal.
-/
import ChipEight.Numeral.Literal
import ChipEight.Text.Trim

namespace ChipEight.CommandLine

/-- Why a list of addresses cannot be read. -/
inductive AddressError
  /-- A number is malformed. -/
  | literal (error : Literal.Error)
  /-- An address comes without a value. -/
  | notAPair (item : List Char)
  deriving DecidableEq, Repr

/-- The wording of the error. -/
def AddressError.message : AddressError → String
  | .literal e => e.message
  | .notAPair item => s!"Expected ADDR:VAL, got {Text.quoted item}"

/-- The items of texts that are not blank. -/
def addressItems (texts : List (List Char)) : List (List Char) :=
  texts.flatMap fun t => (t.splitOn ',').filter fun item => Text.trim item ≠ []

/-- A hexadecimal number. -/
def hexNumber (s : List Char) : Except AddressError Int :=
  match Literal.read .hex s with
  | .ok n => .ok n
  | .error e => .error (.literal e)

/-- The breakpoint that is written in an item. -/
def breakpoint (item : List Char) : Except AddressError Int :=
  hexNumber (Text.trim item)

/-- The address and the byte that are written in an item. -/
def poke (item : List Char) : Except AddressError (Int × UInt8) :=
  match item.dropWhile (· ≠ ':') with
  | [] => .error (.notAPair item)
  | _ :: valueText => do
    let address ← hexNumber (item.takeWhile (· ≠ ':'))
    let v ← hexNumber valueText
    return (address, UInt8.ofInt v)

/-- The breakpoints that are written in texts. -/
def breakpoints (texts : List (List Char)) : Except AddressError (List Int) :=
  (addressItems texts).mapM breakpoint

/-- The addresses and bytes that are written in texts. -/
def pokes (texts : List (List Char)) : Except AddressError (List (Int × UInt8)) :=
  (addressItems texts).mapM poke

end ChipEight.CommandLine
