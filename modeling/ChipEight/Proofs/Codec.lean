/-
Words that are decoded and encoded again.

Main definition: `Instruction.Suited`, the fields of the opcode can hold the operands.

Main statements:
* `Instruction.encode_eq_ok_iff`: exactly the instructions with such operands have a word;
* `Instruction.encode_ofFields`: an instruction from a word of its pattern has that word;
* `Instruction.encode_of_decode`: encoding undoes decoding, but the second word that clears the
  screen becomes the first.
-/
import ChipEight.Proofs.Ranges

namespace ChipEight

namespace Opcode

theorem packed_subset (o : Opcode) : ∀ f ∈ o.packed, f ∈ o.fields := by
  cases o <;> decide

theorem nodup_fields (o : Opcode) : o.fields.Nodup := by
  cases o <;> decide

end Opcode

namespace Pattern

theorem eq_clearAlias_or_eq_pattern : ∀ p ∈ table, p = clearAlias ∨ p = p.opcode.pattern := by
  decide

theorem eq_of_clearAlias_fits {word : Nat} (h : clearAlias.fits word) (hw : word < 65536) :
    word = 0x0230 := by
  simp only [clearAlias, fits, fitsDigit, Bool.and_eq_true, beq_iff_eq] at h
  omega

/-- A word that fits the pattern of an opcode consists of the fixed digits and the fields. -/
theorem base_add_fields {o : Opcode} {word : Nat} (h : o.pattern.fits word) (hw : word < 65536) :
    (o.packed.map fun f => f.extract word * f.weight).foldl (· + ·) o.pattern.base = word := by
  -- The pattern fixes exactly the digits that no field covers.
  cases o <;>
    simp only [Opcode.pattern, fits, fitsDigit, base, Opcode.packed, Opcode.fields, Field.extract,
      Field.weight, Field.bound, Bool.and_eq_true, beq_iff_eq, Option.getD_some, Option.getD_none,
      List.map_cons, List.map_nil, List.foldl_cons, List.foldl_nil] at h ⊢ <;>
    omega

end Pattern

namespace Instruction

/-! ## Instructions that have a word -/

/-- Every field of the opcode has an operand that it can hold, and the register of a jump with
offset is the high digit of its address. -/
structure Suited (i : Instruction) : Prop where
  length : i.args.length = i.opcode.fields.length
  admits : ∀ p ∈ i.opcode.fields.zip i.args, p.1.admits p.2
  jump : i.opcode = .jpOffset → i.operand .x = i.operand .nnn / 256

theorem misfit?_eq_none_iff {i : Instruction} :
    i.misfit? = none ↔ ∀ p ∈ i.opcode.fields.zip i.args, p.1.admits p.2 := by
  simp [misfit?]

/-- Exactly the instructions with suited operands have a word. -/
theorem encode_eq_ok_iff {i : Instruction} {word : Nat} :
    i.encode = .ok word ↔ i.Suited ∧ i.packedWord = word := by
  rw [encode]
  constructor
  · intro h
    split at h
    · cases h
    · rename_i hlength
      split at h
      · cases h
      · rename_i hmisfit
        split at h
        · cases h
        · rename_i hjump
          refine ⟨⟨by omega, misfit?_eq_none_iff.1 hmisfit, fun ho => ?_⟩, Except.ok.inj h⟩
          exact Decidable.of_not_not fun hne => hjump ⟨ho, hne⟩
  · rintro ⟨h, rfl⟩
    rw [if_neg (by simp [h.length]), misfit?_eq_none_iff.2 h.admits]
    dsimp only
    rw [if_neg]
    rintro ⟨ho, hne⟩
    exact hne (h.jump ho)

/-- Looking up different names one after the other gives the values back. -/
theorem map_lookup_zip {fs : List Field} {vs : List Int} (hn : fs.Nodup)
    (hl : vs.length = fs.length) :
    (fs.map fun f => ((fs.zip vs).lookup f).getD 0) = vs := by
  induction fs generalizing vs with
  | nil => exact (List.eq_nil_of_length_eq_zero hl).symm
  | cons f fs ih =>
    obtain ⟨hf, hfs⟩ := List.nodup_cons.1 hn
    cases vs with
    | nil => cases hl
    | cons v vs =>
      have hrest : (fs.map fun g => (((f :: fs).zip (v :: vs)).lookup g).getD 0) =
          fs.map fun g => ((fs.zip vs).lookup g).getD 0 := by
        refine List.map_congr_left fun g hg => ?_
        have hne : g ≠ f := by
          rintro rfl
          exact hf hg
        rw [List.zip_cons_cons, List.lookup_cons, beq_false_of_ne hne]
      rw [List.map_cons, hrest, ih hfs (Nat.succ.inj hl), List.zip_cons_cons,
        List.lookup_cons_self, Option.getD_some]

namespace Suited

variable {i : Instruction} (h : i.Suited)
include h

/-- The operands of the fields are the operands of the instruction. -/
theorem map_operand : i.opcode.fields.map i.operand = i.args :=
  map_lookup_zip i.opcode.nodup_fields h.length

theorem operand?_eq {f : Field} (hf : f ∈ i.opcode.fields) :
    i.operand? f = some (i.operand f) := by
  have hsome : (i.operand? f).isSome := by
    rw [operand?, List.lookup_isSome_iff]
    obtain ⟨k, hk, rfl⟩ := List.getElem_of_mem hf
    have hk' : k < i.args.length := by rw [h.length]; exact hk
    refine ⟨(i.opcode.fields[k], i.args[k]), ?_, beq_self_eq_true _⟩
    rw [← List.getElem_zip (h := by rw [List.length_zip]; omega)]
    exact List.getElem_mem _
  obtain ⟨v, hv⟩ := Option.isSome_iff_exists.1 hsome
  rw [operand, hv, Option.getD_some]

/-- An operand fits its field. -/
theorem operand_bounds {f : Field} (hf : f ∈ i.opcode.fields) :
    0 ≤ i.operand f ∧ i.operand f < f.bound := by
  obtain ⟨l₁, l₂, hzip, -⟩ := List.lookup_eq_some_iff.1 (h.operand?_eq hf)
  refine Field.admits_iff.1 (h.admits (f, i.operand f) ?_)
  rw [hzip]
  exact List.mem_append_right _ List.mem_cons_self

end Suited

/-! ## Words that come back -/

theorem suited_ofFields (o : Opcode) (word : Nat) : (ofFields o word).Suited := by
  refine ⟨by simp [ofFields], ?_, ?_⟩
  · rintro ⟨f, v⟩ hp
    have hzip : o.fields.zip (o.fields.map fun f => (f.extract word : Int)) =
        o.fields.map fun f => (f, (f.extract word : Int)) := by
      rw [← List.zip_map', List.map_id']
    have hv : v = (f.extract word : Int) := by
      rw [ofFields, hzip] at hp
      obtain ⟨g, -, hg⟩ := List.mem_map.1 hp
      cases hg
      rfl
    have hlt := f.extract_lt word
    have hadmits : f.admits (f.extract word : Int) := Field.admits_iff.2 ⟨by omega, by omega⟩
    rw [hv]
    exact hadmits
  · rintro rfl
    rw [operand_ofFields (by decide), operand_ofFields (by decide)]
    simp only [Field.extract, Field.weight, Field.bound]
    omega

/-- An instruction from a word of its pattern has that word. -/
theorem encode_ofFields {o : Opcode} {word : Nat} (h : o.pattern.fits word) (hw : word < 65536) :
    (ofFields o word).encode = .ok word := by
  have hfields : (o.packed.map fun f => ((ofFields o word).operand f).toNat * f.weight) =
      o.packed.map fun f => f.extract word * f.weight := by
    refine List.map_congr_left fun f hf => ?_
    rw [operand_ofFields (o.packed_subset f hf), Int.toNat_natCast]
  refine encode_eq_ok_iff.2 ⟨suited_ofFields o word, ?_⟩
  rw [packedWord, opcode_ofFields, hfields, Pattern.base_add_fields h hw]

/-- The word that encoding gives back for a word. -/
def canonical (word : Nat) : Nat :=
  if word = 0x0230 then 0x00E0 else word

/-- Encoding undoes decoding, but the second word that clears the screen becomes the first. -/
theorem encode_of_decode {word : Nat} (hw : word < 65536) {i : Instruction}
    (h : decode word = .ok i) : i.encode = .ok (canonical word) := by
  have hword : word16 word = word := by
    rw [word16]
    omega
  -- All other words are decoded by the pattern by which their opcode is encoded.
  by_cases halias : word = 0x0230
  · subst halias
    cases h
    rfl
  · obtain ⟨p, hp, hfits, rfl⟩ := decode_eq_ok h
    rw [hword] at hfits ⊢
    rcases Pattern.eq_clearAlias_or_eq_pattern p hp with rfl | hpattern
    · exact absurd (Pattern.eq_of_clearAlias_fits hfits hw) halias
    · rw [hpattern] at hfits
      rw [canonical, if_neg halias, encode_ofFields hfits hw]

end Instruction

end ChipEight
