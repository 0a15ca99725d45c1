/-
Instructions: an opcode with its operands.

Operands are whole numbers of any size, so that an instruction can be put together before it is
known whether it can be encoded.  The number of operands need not fit the opcode either.

Main statement: `Instruction.operand_ofFields`, an instruction made from a word has the operands
that stand in the fields of the word.
-/
import ChipEight.Instruction.Opcode

namespace ChipEight

/-- There are registers at all, so that a number can be taken for one of the sixteen. -/
instance neZero_sixteen : @NeZero Nat Zero.ofOfNat0 16 :=
  ⟨by decide⟩

/-- An opcode with operands. -/
structure Instruction where
  /-- The operation. -/
  opcode : Opcode
  /-- The operands, in the order of the fields of the opcode. -/
  args : List Int
  deriving DecidableEq, Repr

namespace Instruction

/-- The operand of the given field. -/
def operand? (i : Instruction) (f : Field) : Option Int :=
  (i.opcode.fields.zip i.args).lookup f

/-- The operand of the given field, zero if the instruction has none. -/
def operand (i : Instruction) (f : Field) : Int :=
  (i.operand? f).getD 0

/-- The register in the given field. -/
def register (i : Instruction) (f : Field) : Fin 16 :=
  Fin.ofNat 16 (i.operand f % 16).toNat

/-- The register in the field `x`. -/
def x (i : Instruction) : Fin 16 :=
  i.register .x

/-- The register in the field `y`. -/
def y (i : Instruction) : Fin 16 :=
  i.register .y

/-- The small number in the field `n`. -/
def n (i : Instruction) : Int :=
  i.operand .n

/-- The number in the field `kk`. -/
def kk (i : Instruction) : Int :=
  i.operand .kk

/-- The address in the field `nnn`. -/
def nnn (i : Instruction) : Int :=
  i.operand .nnn

/-- An operand that is the number of a register stands for it. -/
theorem register_of_operand {i : Instruction} {f : Field} {x : Fin 16}
    (h : i.operand f = (x : Nat)) : i.register f = x := by
  have hx := x.isLt
  apply Fin.ext
  rw [register, h, Fin.val_ofNat]
  omega

/-- The instruction of the given opcode whose operands stand in the fields of a word. -/
def ofFields (o : Opcode) (word : Nat) : Instruction :=
  ⟨o, o.fields.map fun f => (f.extract word : Int)⟩

@[simp] theorem opcode_ofFields (o : Opcode) (word : Nat) : (ofFields o word).opcode = o := rfl

theorem operand_ofFields {o : Opcode} {f : Field} (h : f ∈ o.fields) (word : Nat) :
    (ofFields o word).operand f = f.extract word := by
  have key : ∀ (fs : List Field), f ∈ fs →
      (fs.zip (fs.map fun f => (f.extract word : Int))).lookup f = some (f.extract word : Int) := by
    intro fs
    induction fs with
    | nil => simp
    | cons g fs ih =>
      intro hf
      by_cases hg : f = g
      · subst hg
        simp
      · have := ih ((List.mem_cons.1 hf).resolve_left hg)
        simpa [List.lookup_cons, beq_false_of_ne hg] using this
  simp [operand, operand?, ofFields, key _ h]

end Instruction

end ChipEight
