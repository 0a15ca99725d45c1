/-
Texts as bytes: UTF-8, with the place and cause of the first fault, and the three ways to end a
line.
-/
namespace ChipEight.Text

/-- What is wrong with a sequence of bytes. -/
inductive Utf8Fault
  /-- A byte that no character starts with. -/
  | startByte
  /-- A byte that does not continue the character under way. -/
  | continuationByte
  /-- The bytes end within a character. -/
  | endOfData
  deriving DecidableEq, Repr

/-- The wording of the fault. -/
def Utf8Fault.reason : Utf8Fault → String
  | .startByte => "invalid start byte"
  | .continuationByte => "invalid continuation byte"
  | .endOfData => "unexpected end of data"

/-- The first fault of a sequence of bytes: its cause, the position where the faulty character
starts, the first byte of it, and how many bytes of it are to blame. -/
structure Utf8Error where
  /-- The cause. -/
  fault : Utf8Fault
  /-- Where the character starts. -/
  position : Nat
  /-- Its first byte. -/
  byte : UInt8
  /-- How many bytes are to blame. -/
  length : Nat
  deriving DecidableEq, Repr

/-- The wording of the error. -/
def Utf8Error.message (e : Utf8Error) : String :=
  let place :=
    if e.length = 1 then
      let digits := String.ofList ((Nat.toDigits 16 (e.byte.toNat + 256)).drop 1)
      s!"byte 0x{digits} in position {e.position}"
    else s!"bytes in position {e.position}-{e.position + e.length - 1}"
  s!"'utf-8' codec can't decode {place}: {e.fault.reason}"

namespace Utf8

/-- Whether the byte continues a character. -/
def isContinuation (b : UInt8) : Bool :=
  0x80 ≤ b && b < 0xC0

/-- The six bits that a continuing byte carries. -/
def payload (b : UInt8) : Nat :=
  b.toNat % 64

/-- Read one character, whose first byte is `b`: its code point and the number of bytes that
continue it, or the fault and the number of bytes to blame. -/
def character (b : UInt8) (s : List UInt8) : Except (Utf8Fault × Nat) (Nat × Nat) :=
  if b < 0x80 then .ok (b.toNat, 0)
  else if b < 0xC2 then .error (.startByte, 1)
  else if b < 0xE0 then
    match s with
    | [] => .error (.endOfData, 1)
    | c :: _ =>
      if isContinuation c then .ok ((b.toNat % 32) * 64 + payload c, 1)
      else .error (.continuationByte, 1)
  else if b < 0xF0 then
    match s with
    | [] => .error (.endOfData, 1)
    | c :: s =>
      -- Neither a character that fits two bytes nor half a surrogate pair.
      if !isContinuation c || (b == 0xE0 && c < 0xA0) || (b == 0xED && 0xA0 ≤ c) then
        .error (.continuationByte, 1)
      else
        match s with
        | [] => .error (.endOfData, 2)
        | d :: _ =>
          if isContinuation d then
            .ok ((b.toNat % 16) * 4096 + payload c * 64 + payload d, 2)
          else .error (.continuationByte, 2)
  else if b < 0xF5 then
    match s with
    | [] => .error (.endOfData, 1)
    | c :: s =>
      -- Neither a character that fits three bytes nor one beyond the last code point.
      if !isContinuation c || (b == 0xF0 && c < 0x90) || (b == 0xF4 && 0x90 ≤ c) then
        .error (.continuationByte, 1)
      else
        match s with
        | [] => .error (.endOfData, 2)
        | d :: s =>
          if !isContinuation d then .error (.continuationByte, 2)
          else
            match s with
            | [] => .error (.endOfData, 3)
            | e :: _ =>
              if isContinuation e then
                .ok ((b.toNat % 8) * 262144 + payload c * 4096 + payload d * 64 + payload e, 3)
              else .error (.continuationByte, 3)
  else .error (.startByte, 1)

/-- The characters of the bytes, which stand from `position` on. -/
def decodeFrom (position : Nat) : List UInt8 → Except Utf8Error (List Char)
  | [] => .ok []
  | b :: s =>
    match character b s with
    | .error (fault, length) => .error ⟨fault, position, b, length⟩
    | .ok (n, k) => (decodeFrom (position + k + 1) (s.drop k)).map (Char.ofNat n :: ·)
  termination_by s => s.length
  decreasing_by
    simp only [List.length_drop, List.length_cons]
    omega

/-- The characters of the bytes. -/
def decode (s : List UInt8) : Except Utf8Error (List Char) :=
  decodeFrom 0 s

/-- The bytes of a text. -/
def encode (s : List Char) : List UInt8 :=
  (String.ofList s).toUTF8.toList

end Utf8

/-- The text with every line ended by a line feed, where it was a carriage return or a carriage
return with a line feed. -/
def unifyNewlines : List Char → List Char
  | [] => []
  | '\r' :: '\n' :: s => '\n' :: unifyNewlines s
  | c :: s => (if c = '\r' then '\n' else c) :: unifyNewlines s

end ChipEight.Text
