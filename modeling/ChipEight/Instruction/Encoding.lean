/-
Words and instructions.

An opcode is recognised by the fixed digits of its words; the other digits hold its operands.
The patterns are tried in order and the first that fits a word decides, so that the extensions
that begin with `00` come before the calls of the host, which fit every word that begins with
`0`.  The word `0230` is a second way to clear the screen.

Encoding uses the pattern of the opcode.  It refuses a wrong number of operands, an operand that
its field cannot hold, and a jump with offset whose register is not the high digit of its
address, because the two share that digit.

Main statements:
* `decode_mod`: only the last sixteen bits of a word matter;
* `decode_eq_error_iff`: a word is refused exactly if no pattern fits it.
-/
import ChipEight.Instruction.Basic
import ChipEight.Numeral.Hex

namespace ChipEight

/-! ## Patterns -/

/-- The digits of the words of an opcode, the first digit first; a digit that belongs to an
operand is left open. -/
structure Pattern where
  /-- The opcode of the words. -/
  opcode : Opcode
  /-- The first digit. -/
  first : Nat
  /-- The second digit. -/
  second : Option Nat
  /-- The third digit. -/
  third : Option Nat
  /-- The fourth digit. -/
  fourth : Option Nat
  deriving DecidableEq, Repr

namespace Pattern

/-- Whether a digit of a pattern fits a digit of a word. -/
def fitsDigit (fixed : Option Nat) (digit : Nat) : Bool :=
  match fixed with
  | some d => d == digit
  | none => true

/-- Whether the pattern fits a word. -/
def fits (p : Pattern) (word : Nat) : Bool :=
  p.first == word / 4096 % 16 && fitsDigit p.second (word / 256 % 16) &&
    fitsDigit p.third (word / 16 % 16) && fitsDigit p.fourth (word % 16)

/-- The word whose open digits are zero. -/
def base (p : Pattern) : Nat :=
  p.first * 4096 + p.second.getD 0 * 256 + p.third.getD 0 * 16 + p.fourth.getD 0

end Pattern

/-- The pattern by which the opcode is encoded. -/
def Opcode.pattern (o : Opcode) : Pattern :=
  match o with
  | .sys => ⟨o, 0x0, none, none, none⟩
  | .cls => ⟨o, 0x0, some 0x0, some 0xE, some 0x0⟩
  | .ret => ⟨o, 0x0, some 0x0, some 0xE, some 0xE⟩
  | .scr => ⟨o, 0x0, some 0x0, some 0xF, some 0xB⟩
  | .scl => ⟨o, 0x0, some 0x0, some 0xF, some 0xC⟩
  | .exit => ⟨o, 0x0, some 0x0, some 0xF, some 0xD⟩
  | .low => ⟨o, 0x0, some 0x0, some 0xF, some 0xE⟩
  | .high => ⟨o, 0x0, some 0x0, some 0xF, some 0xF⟩
  | .scd => ⟨o, 0x0, some 0x0, some 0xC, none⟩
  | .jp => ⟨o, 0x1, none, none, none⟩
  | .call => ⟨o, 0x2, none, none, none⟩
  | .seByte => ⟨o, 0x3, none, none, none⟩
  | .sneByte => ⟨o, 0x4, none, none, none⟩
  | .seReg => ⟨o, 0x5, none, none, some 0x0⟩
  | .ldByte => ⟨o, 0x6, none, none, none⟩
  | .addByte => ⟨o, 0x7, none, none, none⟩
  | .ldReg => ⟨o, 0x8, none, none, some 0x0⟩
  | .or => ⟨o, 0x8, none, none, some 0x1⟩
  | .and => ⟨o, 0x8, none, none, some 0x2⟩
  | .xor => ⟨o, 0x8, none, none, some 0x3⟩
  | .addReg => ⟨o, 0x8, none, none, some 0x4⟩
  | .sub => ⟨o, 0x8, none, none, some 0x5⟩
  | .shr => ⟨o, 0x8, none, none, some 0x6⟩
  | .subn => ⟨o, 0x8, none, none, some 0x7⟩
  | .shl => ⟨o, 0x8, none, none, some 0xE⟩
  | .sneReg => ⟨o, 0x9, none, none, some 0x0⟩
  | .ldIndex => ⟨o, 0xA, none, none, none⟩
  | .jpOffset => ⟨o, 0xB, none, none, none⟩
  | .rnd => ⟨o, 0xC, none, none, none⟩
  | .drw => ⟨o, 0xD, none, none, none⟩
  | .skp => ⟨o, 0xE, none, some 0x9, some 0xE⟩
  | .sknp => ⟨o, 0xE, none, some 0xA, some 0x1⟩
  | .ldFromDelay => ⟨o, 0xF, none, some 0x0, some 0x7⟩
  | .ldKey => ⟨o, 0xF, none, some 0x0, some 0xA⟩
  | .ldDelay => ⟨o, 0xF, none, some 0x1, some 0x5⟩
  | .ldSound => ⟨o, 0xF, none, some 0x1, some 0x8⟩
  | .addIndex => ⟨o, 0xF, none, some 0x1, some 0xE⟩
  | .ldFont => ⟨o, 0xF, none, some 0x2, some 0x9⟩
  | .ldLargeFont => ⟨o, 0xF, none, some 0x3, some 0x0⟩
  | .ldDecimal => ⟨o, 0xF, none, some 0x3, some 0x3⟩
  | .store => ⟨o, 0xF, none, some 0x5, some 0x5⟩
  | .fetch => ⟨o, 0xF, none, some 0x6, some 0x5⟩
  | .save => ⟨o, 0xF, none, some 0x7, some 0x5⟩
  | .restore => ⟨o, 0xF, none, some 0x8, some 0x5⟩

/-- The fields that make up the open digits of the words of the opcode: the register of a jump
with offset is part of its address. -/
def Opcode.packed : Opcode → List Field
  | .jpOffset => [.nnn]
  | o => o.fields

namespace Pattern

/-- The second word that clears the screen. -/
def clearAlias : Pattern :=
  ⟨.cls, 0x0, some 0x2, some 0x3, some 0x0⟩

/-- The patterns in the order in which they are tried. -/
def table : List Pattern :=
  [Opcode.cls, .ret, .scr, .scl, .exit, .low, .high, .scd].map Opcode.pattern ++
    clearAlias ::
      [Opcode.sys, .jp, .call, .seByte, .sneByte, .seReg, .ldByte, .addByte, .ldReg, .or, .and,
        .xor, .addReg, .sub, .shr, .subn, .shl, .sneReg, .ldIndex, .jpOffset, .rnd, .drw, .skp,
        .sknp, .ldFromDelay, .ldKey, .ldDelay, .ldSound, .addIndex, .ldFont, .ldLargeFont,
        .ldDecimal, .store, .fetch, .save, .restore].map Opcode.pattern

@[simp] theorem opcode_pattern (o : Opcode) : o.pattern.opcode = o := by
  cases o <;> rfl

end Pattern

/-! ## Decoding -/

/-- A word that no pattern fits, with the address it was fetched from, if it was fetched. -/
structure InvalidOpcode where
  /-- The word. -/
  word : Int
  /-- Where it was fetched. -/
  address : Option Int
  deriving DecidableEq, Repr

/-- The wording of the error. -/
def InvalidOpcode.message (e : InvalidOpcode) : String :=
  let word := String.ofList (Hex.bare 4 e.word)
  match e.address with
  | some address => s!"Invalid opcode ${word} at {String.ofList (Hex.marked 5 address)}"
  | none => s!"Invalid opcode ${word}"

namespace Instruction

/-- The last sixteen bits of a number. -/
def word16 (word : Int) : Nat :=
  (word % 65536).toNat

/-- The instruction of a word, of which the last sixteen bits matter. -/
def decode (word : Int) : Except InvalidOpcode Instruction :=
  match Pattern.table.find? fun p => p.fits (word16 word) with
  | some p => .ok (ofFields p.opcode (word16 word))
  | none => .error ⟨word16 word, none⟩

theorem word16_lt (word : Int) : word16 word < 65536 := by
  unfold word16
  omega

theorem word16_mod (word : Int) : word16 (word % 65536) = word16 word := by
  unfold word16
  omega

theorem decode_mod (word : Int) : decode (word % 65536) = decode word := by
  simp only [decode, word16_mod]

theorem decode_eq_error_iff {word : Int} :
    (∃ e, decode word = .error e) ↔ ∀ p ∈ Pattern.table, p.fits (word16 word) = false := by
  unfold decode
  constructor
  · rintro ⟨e, h⟩
    split at h
    · cases h
    · simpa using ‹Pattern.table.find? _ = none›
  · intro h
    have : Pattern.table.find? (fun p => p.fits (word16 word)) = none := by simpa using h
    exact ⟨⟨word16 word, none⟩, by rw [this]⟩

/-! ## Encoding -/

/-- Why an instruction has no word. -/
inductive EncodeError
  /-- The opcode takes another number of operands. -/
  | arity (opcode : Opcode) (given : Nat)
  /-- The field cannot hold the operand. -/
  | outOfRange (opcode : Opcode) (field : Field) (value : Int)
  /-- The register of a jump with offset is not the high digit of its address. -/
  | registerMismatch (register address : Int)
  deriving DecidableEq, Repr

/-- The wording of the error. -/
def EncodeError.message : EncodeError → String
  | .arity opcode given =>
    s!"{opcode.name} takes {opcode.fields.length} operand(s), got {given}"
  | .outOfRange opcode field value =>
    s!"{opcode.name}: operand {field.name}={String.ofList (Hex.marked 0 value)} out of range"
  | .registerMismatch register address =>
    s!"{Opcode.jpOffset.name}: register V{String.ofList (Hex.capital 0 register)} does not match " ++
      s!"address {String.ofList (Hex.marked 5 address)}"

/-- The word that is made of the operands, which fit their fields. -/
def packedWord (i : Instruction) : Nat :=
  (i.opcode.packed.map fun f => (i.operand f).toNat * f.weight).foldl (· + ·) i.opcode.pattern.base

/-- The first operand that its field cannot hold. -/
def misfit? (i : Instruction) : Option (Field × Int) :=
  (i.opcode.fields.zip i.args).find? fun (f, v) => !f.admits v

/-- The word of an instruction. -/
def encode (i : Instruction) : Except EncodeError Nat :=
  if i.args.length ≠ i.opcode.fields.length then .error (.arity i.opcode i.args.length)
  else
    match i.misfit? with
    | some (f, v) => .error (.outOfRange i.opcode f v)
    | none =>
      if i.opcode = .jpOffset ∧ i.operand .x ≠ i.operand .nnn / 256 then
        .error (.registerMismatch (i.operand .x) (i.operand .nnn))
      else .ok i.packedWord

end Instruction

end ChipEight
