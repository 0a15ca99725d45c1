/-
Reading whole numbers.

A literal is a sign, a mark that tells the radix, and digits, with blanks around it.  Single
underscores may stand between digits and after the mark.  The digits of every script count,
and so do the blanks of every script.  Which marks are allowed depends on the radix that is
expected.

Main statement: `horner_append`, a number grows digit by digit.
-/
import ChipEight.Text.Blank
import ChipEight.Text.DecimalDigit
import ChipEight.Text.Quoted

namespace ChipEight.Literal

/-- What a reader expects the radix of a literal to be. -/
inductive Radix
  /-- Decimal digits without a mark. -/
  | decimal
  /-- Hexadecimal digits, with or without the mark `0x`. -/
  | hex
  /-- What the mark `0x`, `0o` or `0b` tells, and decimal without a mark. -/
  | told
  deriving DecidableEq, Repr

/-- The number that messages give for the radix: zero if the mark tells it. -/
def Radix.base : Radix → Nat
  | .decimal => 10
  | .hex => 16
  | .told => 0

/-- Why a text is no number. -/
inductive Error
  /-- The text is not a literal of the radix. -/
  | malformed (radix : Radix) (text : List Char)
  /-- There are too many decimal digits. -/
  | tooLong (digits : Nat)
  deriving DecidableEq, Repr

/-- The most decimal digits that a literal may have. -/
def maxDigits : Nat := 4300

/-- The wording of the error.  Of the text that is quoted, at most 200 characters are shown. -/
def Error.message : Error → String
  | .malformed radix text =>
    let shown := String.ofList ((Text.quote text).take 200)
    s!"invalid literal for int() with base {radix.base}: {shown}"
  | .tooLong digits =>
    s!"Exceeds the limit ({maxDigits} digits) for integer string conversion: value has {digits} " ++
      "digits; use sys.set_int_max_str_digits() to increase the limit"

/-! ## Characters -/

/-- The character of the basic alphabet that `c` stands for in a literal: digits and blanks of
other scripts stand for those of the basic alphabet, and `?` for anything else. -/
def basic (c : Char) : Char :=
  if c.toNat < 127 then c
  else if Text.isBlank c then ' '
  else
    match Text.decimalDigit? c with
    | some d => Char.ofNat (d + 48)
    | none => '?'

/-- Whether the character is a blank around a literal. -/
def isSpace (c : Char) : Bool :=
  c == ' ' || (9 ≤ c.toNat && c.toNat ≤ 13)

/-- The value of a hexadecimal digit. -/
def hexValue? (c : Char) : Option Nat :=
  if '0' ≤ c ∧ c ≤ '9' then some (c.toNat - 48)
  else if 'a' ≤ c ∧ c ≤ 'f' then some (c.toNat - 87)
  else if 'A' ≤ c ∧ c ≤ 'F' then some (c.toNat - 55)
  else none

/-- The value of a digit of the given radix, which is at most sixteen. -/
def digitValue? (radix : Nat) (c : Char) : Option Nat :=
  (hexValue? c).filter (· < radix)

/-- Whether the character is a digit of the radix. -/
def isDigit (radix : Nat) (c : Char) : Bool :=
  (digitValue? radix c).isSome

/-! ## Digits -/

/-- The number whose digits, after those of `n`, are given. -/
def horner (radix : Nat) (n : Nat) : List Char → Nat
  | [] => n
  | c :: s => horner radix (n * radix + (digitValue? radix c).getD 0) s

/-- Whether the text consists of groups of digits with single underscores between them. -/
def isGrouped (radix : Nat) (s : List Char) : Bool :=
  (s.splitOn '_').all fun group => group ≠ [] && group.all (isDigit radix)

/-- The digits of a grouped text. -/
def ungrouped (s : List Char) : List Char :=
  s.filter (· ≠ '_')

/-- The number that a grouped text shows, or none if it is no such text.  Decimal digits are
limited in number, and the limit is checked before what follows them. -/
def magnitude (radix : Nat) (s : List Char) : Except (Option Nat) Nat :=
  let run := s.takeWhile fun c => isDigit radix c || c == '_'
  -- What follows the run counts only after the length of the run is found to be right.
  if !isGrouped radix run then .error none
  else if radix = 10 ∧ maxDigits < (ungrouped run).length then
    .error (some (ungrouped run).length)
  else if run.length < s.length then .error none
  else .ok (horner radix 0 (ungrouped run))

/-! ## Literals -/

/-- What follows the mark of a radix: a single underscore may stand before the digits. -/
def afterMark : List Char → List Char
  | '_' :: s => s
  | s => s

/-- The number that an unsigned literal shows. -/
def unsigned : Radix → List Char → Except (Option Nat) Nat
  | .decimal, s => magnitude 10 s
  | .hex, '0' :: c :: s =>
    if c = 'x' ∨ c = 'X' then magnitude 16 (afterMark s) else magnitude 16 ('0' :: c :: s)
  | .hex, s => magnitude 16 s
  | .told, '0' :: c :: s =>
    if c = 'x' ∨ c = 'X' then magnitude 16 (afterMark s)
    else if c = 'o' ∨ c = 'O' then magnitude 8 (afterMark s)
    else if c = 'b' ∨ c = 'B' then magnitude 2 (afterMark s)
    else
      -- In decimal, only zero may begin with a zero.
      match magnitude 10 ('0' :: c :: s) with
      | .ok 0 => .ok 0
      | .ok _ => .error none
      | .error e => .error e
  | .told, s => magnitude 10 s

/-- The number that a signed literal shows. -/
def signed (radix : Radix) : List Char → Except (Option Nat) Int
  | '-' :: s => (unsigned radix s).map fun n => -(n : Int)
  | '+' :: s => (unsigned radix s).map fun n => (n : Int)
  | s => (unsigned radix s).map fun n => (n : Int)

/-- The text in basic characters, without the blanks at its ends. -/
def core (s : List Char) : List Char :=
  (((s.map basic).dropWhile isSpace).reverse.dropWhile isSpace).reverse

/-- Read a number. -/
def read (radix : Radix) (s : List Char) : Except Error Int :=
  match signed radix (core s) with
  | .ok n => .ok n
  | .error none => .error (.malformed radix s)
  | .error (some digits) => .error (.tooLong digits)

theorem horner_append (radix n : Nat) (s t : List Char) :
    horner radix n (s ++ t) = horner radix (horner radix n s) t := by
  induction s generalizing n with
  | nil => rfl
  | cons c s ih => exact ih _

end ChipEight.Literal
