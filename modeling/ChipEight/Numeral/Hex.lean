/-
Numbers in hexadecimal, as they are written in messages and listings.

A number is written with its sign first, then the mark `0x` if the form has one, then zeros up
to the width of the form, then its digits.
-/
namespace ChipEight.Hex

/-- The digits of a number in hexadecimal. -/
def digits (n : Nat) : List Char :=
  Nat.toDigits 16 n

/-- `n` with the given mark after its sign, filled with zeros to `width` characters. -/
def filled (mark : List Char) (width : Nat) (n : Int) : List Char :=
  let head := (if n < 0 then ['-'] else []) ++ mark
  let digits := digits n.natAbs
  head ++ List.replicate (width - (head.length + digits.length)) '0' ++ digits

/-- `n` with the mark `0x`, such as `0x02a` in five characters. -/
def marked (width : Nat) (n : Int) : List Char :=
  filled ['0', 'x'] width n

/-- `n` without a mark, such as `002a` in four characters. -/
def bare (width : Nat) (n : Int) : List Char :=
  filled [] width n

/-- `n` without a mark and in capitals, such as `002A` in four characters. -/
def capital (width : Nat) (n : Int) : List Char :=
  (bare width n).map Char.toUpper

/-- Two hexadecimal digits of a byte. -/
def byte (b : UInt8) : List Char :=
  bare 2 b.toNat

/-- The bytes in hexadecimal, two digits each. -/
def ofBytes (s : List UInt8) : List Char :=
  s.flatMap byte

end ChipEight.Hex
