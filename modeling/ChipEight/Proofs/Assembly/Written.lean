/-
Instructions are read as they are written.

An instruction is written as a phrase: its mnemonic, and what stands in the slots of its form.
Every slot is read as the operand that was written there, and the mnemonic and the kinds of the
operands tell the opcode.

Main definitions:
* `Instruction.slotWords`: what stands in the slots of an instruction;
* `Instruction.readAs`: the operand that a slot is read as.

Main statements:
* `Operand.ofText_slotWord`: a slot is read as the operand that was written there;
* `instruction_of_text`: the text of an instruction that has a word is read as the instruction;
* `text_read_back`: so it is whatever labels there are, and no two instructions share a text.
-/
import ChipEight.Proofs.Assembly.Labels
import ChipEight.Proofs.Codec
import ChipEight.Proofs.Numerals
import ChipEight.Proofs.Text.Cutting
import Mathlib.Data.List.Basic

namespace ChipEight

/-! ## Forms -/

/-- A slot for a register has the field of a register, and a slot for a number has another one. -/
def Slot.IsRegular : Slot → Bool
  | .register f => f == .x || f == .y
  | .offset => true
  | .keyword _ => true
  | .number f => f != .x && f != .y

/-- The field of a slot whose operand is written out. -/
def Slot.field? : Slot → Option Field
  | .register f => some f
  | .number f => some f
  | _ => none

namespace Opcode

theorem isRegular_of_mem_slots (o : Opcode) : ∀ s ∈ o.form.slots, s.IsRegular := by
  cases o <;> decide

theorem mem_fields_of_mem_slots (o : Opcode) :
    ∀ s ∈ o.form.slots, ∀ f ∈ s.field?, f ∈ o.fields := by
  cases o <;> decide

/-- The slots hold the fields in their order, apart from the register of a jump with offset. -/
theorem filterMap_field?_slots {o : Opcode} (h : o ≠ .jpOffset) :
    o.form.slots.filterMap Slot.field? = o.fields := by
  cases o <;> first | rfl | exact absurd rfl h

theorem offset_not_mem_slots {o : Opcode} (h : o ≠ .jpOffset) : Slot.offset ∉ o.form.slots := by
  revert h
  cases o <;> decide

end Opcode

namespace Instruction

/-- What stands in a slot. -/
def slotWord (i : Instruction) : Slot → List Char
  | .register f => 'V' :: f.text (i.operand f)
  | .offset => ['V', '0']
  | .keyword k => k.text
  | .number f => f.text (i.operand f)

/-- What stands in the slots of the form. -/
def slotWords (i : Instruction) : List (List Char) :=
  i.opcode.form.slots.map i.slotWord

/-- The operand that a slot is read as. -/
def readAs (i : Instruction) : Slot → Assembly.Operand
  | .register f => .register (i.operand f).toNat
  | .offset => .register 0
  | .keyword k => .keyword k
  | .number f => .value (f.text (i.operand f))

/-- The number that stands in a slot. -/
def slotNumber? (i : Instruction) : Slot → Option Int
  | .register f => some (i.operand f)
  | .offset => some 0
  | .keyword _ => none
  | .number f => some (i.operand f)

namespace Suited

variable {i : Instruction} (h : i.Suited)
include h

theorem slotText_eq {s : Slot} (hs : ∀ f ∈ s.field?, f ∈ i.opcode.fields) :
    i.slotText s = .ok (i.slotWord s) := by
  cases s with
  | register f => rw [slotText, h.operand?_eq (hs f rfl), slotWord]
  | offset => rfl
  | keyword k => rfl
  | number f => rw [slotText, h.operand?_eq (hs f rfl), slotWord]

theorem slotTexts_eq {ss : List Slot} (hs : ∀ s ∈ ss, ∀ f ∈ s.field?, f ∈ i.opcode.fields) :
    i.slotTexts ss = .ok (ss.map i.slotWord) := by
  induction ss with
  | nil => rfl
  | cons s ss ih =>
    rw [slotTexts, h.slotText_eq (hs s List.mem_cons_self),
      ih fun s' hs' => hs s' (List.mem_cons_of_mem _ hs')]
    rfl

/-- An instruction is written as a phrase. -/
theorem text_eq :
    i.text = .ok (Text.phrase (i.opcode.form.mnemonic.map Char.toUpper) i.slotWords) := by
  rw [text, h.slotTexts_eq i.opcode.mem_fields_of_mem_slots, ← slotWords]
  cases i.slotWords with
  | nil => rfl
  | cons t ts => rfl

end Suited

end Instruction

/-! ## Numbers as they are written -/

/-- What begins with a digit and consists of digits and the mark of a radix is a plain word. -/
structure IsNumeral (s : List Char) : Prop where
  first : ∃ d < 10, ∃ t, s = d.digitChar :: t
  chars : ∀ c ∈ s, c = 'x' ∨ ∃ d < 16, c = d.digitChar

theorem plain_digitChar {d : Nat} (h : d < 16) : Text.Plain d.digitChar := by
  have hall : ∀ d : Fin 16, Text.Plain d.val.digitChar := by decide
  exact hall ⟨d, h⟩

theorem IsNumeral.plainWord {s : List Char} (h : IsNumeral s) : Text.PlainWord s := by
  obtain ⟨⟨d, -, t, rfl⟩, hchars⟩ := h
  refine ⟨by simp, fun c hc => ?_⟩
  rcases hchars c hc with rfl | ⟨d, hd, rfl⟩
  · decide
  · exact plain_digitChar hd

theorem isNumeral_marked {v : Int} (h : 0 ≤ v) (width : Nat) : IsNumeral (Hex.marked width v) := by
  obtain ⟨k, hk⟩ := Literal.marked_of_nonneg h width
  rw [hk]
  refine ⟨⟨0, by decide, _, rfl⟩, fun c hc => ?_⟩
  rcases List.mem_cons.1 hc with rfl | hc
  · exact .inr ⟨0, by decide, rfl⟩
  rcases List.mem_cons.1 hc with rfl | hc
  · exact .inl rfl
  · exact .inr (Literal.exists_of_mem_zeros_append (by decide) hc)

theorem isNumeral_toDigits (n : Nat) : IsNumeral (Nat.toDigits 10 n) := by
  constructor
  · rcases Nat.eq_zero_or_pos n with rfl | hn
    · exact ⟨0, by decide, [], rfl⟩
    · obtain ⟨d, t, -, hd, ht⟩ := Literal.exists_toDigits_eq hn
      exact ⟨d, hd, t, ht⟩
  · intro c hc
    obtain ⟨d, hd, rfl⟩ := Literal.exists_of_mem_toDigits (by decide) hc
    exact .inr ⟨d, by omega, rfl⟩

theorem toList_toString {v : Int} (h : 0 ≤ v) :
    (toString v).toList = Nat.toDigits 10 v.toNat := by
  obtain ⟨n, rfl⟩ := Int.eq_ofNat_of_zero_le h
  rw [Int.toNat_natCast]
  exact Nat.toList_repr

/-- The number of a field is written as a numeral that shows the number. -/
theorem Field.text_spec {f : Field} {v : Int} (hf : (Slot.number f).IsRegular) (h0 : 0 ≤ v)
    (hv : v < f.bound) : IsNumeral (f.text v) ∧ Literal.read .told (f.text v) = .ok v := by
  cases f with
  | x => cases hf
  | y => cases hf
  | n =>
    have hlength : ∀ n : Fin 16, (Nat.toDigits 10 n.val).length ≤ Literal.maxDigits := by decide
    have hn : v.toNat < 16 := by
      rw [bound] at hv
      omega
    rw [Field.text, toList_toString h0]
    refine ⟨isNumeral_toDigits _, ?_⟩
    rw [Literal.read_toDigits (hlength ⟨v.toNat, hn⟩), Int.toNat_of_nonneg h0]
  | kk => exact ⟨isNumeral_marked h0 4, Literal.read_marked h0 4⟩
  | nnn => exact ⟨isNumeral_marked h0 5, Literal.read_marked h0 5⟩

namespace Assembly

/-! ## Operands -/

namespace Operand

/-- What begins with a digit is neither a register nor a keyword. -/
theorem ofText_numeral {s : List Char} (h : IsNumeral s) : ofText s = .value s := by
  obtain ⟨⟨d, hd, t, rfl⟩, -⟩ := h
  have hchars : ∀ d : Fin 10, d.val.digitChar ≠ 'v' ∧ d.val.digitChar ≠ 'V' ∧
      d.val.digitChar ≠ ' ' ∧ Text.capitals d.val.digitChar = [d.val.digitChar] ∧
      ∀ k ∈ Keyword.all, k.text.head? ≠ some d.val.digitChar := by decide
  obtain ⟨hv, hv', hblank, hcapitals, hkeyword⟩ := hchars ⟨d, hd⟩
  have hregister : registerOfText? (d.digitChar :: t) = none := by
    -- A register begins with a letter, even where the text has two characters.
    rw [registerOfText?.eq_def]
    split
    · rename_i heq
      rw [if_neg]
      rintro (h | h)
      · exact hv ((List.cons.inj heq).1.trans h)
      · exact hv' ((List.cons.inj heq).1.trans h)
    · rfl
  have hnone (u : List Char) : Keyword.ofText? (d.digitChar :: u) = none := by
    rw [Keyword.ofText?, List.find?_eq_none]
    intro k hk heq
    refine hkeyword k hk ?_
    rw [beq_iff_eq.1 heq]
    rfl
  rw [ofText, hregister, List.flatMap_cons, hcapitals, List.singleton_append,
    List.filter_cons_of_pos (by simp [hblank]), hnone]

theorem ofText_register {n : Nat} (h : n < 16) :
    Text.PlainWord ('V' :: Hex.capital 0 n) ∧ ofText ('V' :: Hex.capital 0 n) = .register n := by
  have hall : ∀ n : Fin 16, Text.PlainWord ('V' :: Hex.capital 0 (n.val : Int)) ∧
      ofText ('V' :: Hex.capital 0 (n.val : Int)) = .register n.val := by decide
  exact hall ⟨n, h⟩

theorem ofText_keyword (k : Keyword) : Text.PlainWord k.text ∧ ofText k.text = .keyword k := by
  cases k <;> exact ⟨by decide, by decide⟩

/-- A slot is a plain word that is read as the operand that was written there. -/
theorem ofText_slotWord {i : Instruction} (h : i.Suited) {s : Slot} (hs : s ∈ i.opcode.form.slots) :
    Text.PlainWord (i.slotWord s) ∧ ofText (i.slotWord s) = i.readAs s := by
  have hregular := i.opcode.isRegular_of_mem_slots s hs
  have hfield := i.opcode.mem_fields_of_mem_slots s hs
  cases s with
  | register f =>
    obtain ⟨h0, h1⟩ := h.operand_bounds (hfield f rfl)
    have hf : f.bound = 16 ∧ f.text (i.operand f) = Hex.capital 0 (i.operand f) := by
      cases f with
      | x => exact ⟨rfl, rfl⟩
      | y => exact ⟨rfl, rfl⟩
      | n => cases hregular
      | kk => cases hregular
      | nnn => cases hregular
    have hn := ofText_register (n := (i.operand f).toNat) (by omega)
    rw [Int.toNat_of_nonneg h0] at hn
    rw [Instruction.slotWord, hf.2]
    exact hn
  | offset => exact ofText_register (n := 0) (by decide)
  | keyword k => exact ofText_keyword k
  | number f =>
    obtain ⟨h0, h1⟩ := h.operand_bounds (hfield f rfl)
    obtain ⟨hnumeral, -⟩ := Field.text_spec hregular h0 h1
    exact ⟨hnumeral.plainWord, ofText_numeral hnumeral⟩

end Operand

/-! ## Instructions -/

/-- Apart from a jump with offset, an opcode takes the numbers as they are when there is one for
each field. -/
theorem arguments_of_length {o : Opcode} {ns : List Int} (ho : o ≠ .jpOffset)
    (h : ns.length = o.fields.length) :
    arguments o ns = .ok (List.zipWith wrapByte o.fields ns) := by
  rw [arguments.eq_def]
  split
  · cases h
  · cases h
  · exact absurd rfl ho
  · rfl

section Instruction

variable {i : Instruction} (h : i.Suited) {labels : Labels} (hn : labels.Named)

/-- A numeral is never mistaken for a label. -/
theorem lookup_of_isNumeral {labels : Labels} (hn : labels.Named) {s : List Char}
    (hs : IsNumeral s) : labels.lookup s = none := by
  obtain ⟨⟨d, hd, t, rfl⟩, -⟩ := hs
  have hall : ∀ d : Fin 10, isLabelStart d.val.digitChar = false := by decide
  cases hl : labels.lookup (d.digitChar :: t) with
  | none => rfl
  | some address =>
    obtain ⟨c, u, hcu, hc⟩ := hn.of_lookup hl
    rw [← (List.cons.inj hcu).1, hall ⟨d, hd⟩] at hc
    cases hc

include h hn in
theorem number?_readAs {s : Slot} (hs : s ∈ i.opcode.form.slots) :
    (i.readAs s).number? labels = .ok (i.slotNumber? s) := by
  have hregular := i.opcode.isRegular_of_mem_slots s hs
  have hfield := i.opcode.mem_fields_of_mem_slots s hs
  cases s with
  | register f =>
    obtain ⟨h0, -⟩ := h.operand_bounds (hfield f rfl)
    rw [Instruction.readAs, Operand.number?, Int.toNat_of_nonneg h0, Instruction.slotNumber?]
  | offset => rfl
  | keyword k => rfl
  | number f =>
    obtain ⟨h0, h1⟩ := h.operand_bounds (hfield f rfl)
    obtain ⟨hnumeral, hread⟩ := Field.text_spec hregular h0 h1
    rw [Instruction.readAs, Operand.number?, value, lookup_of_isNumeral hn hnumeral, hread]
    rfl

include h hn in
theorem numbers_readAs {ss : List Slot} (hs : ∀ s ∈ ss, s ∈ i.opcode.form.slots) :
    numbers labels (ss.map i.readAs) = .ok (ss.filterMap i.slotNumber?) := by
  induction ss with
  | nil => rfl
  | cons s ss ih =>
    rw [List.map_cons, numbers, number?_readAs h hn (hs s List.mem_cons_self),
      ih fun s' hs' => hs s' (List.mem_cons_of_mem _ hs')]
    cases hs : i.slotNumber? s <;> simp [hs]

include h in
/-- Operands that their fields can hold are no small negative bytes. -/
theorem zipWith_wrapByte_args : List.zipWith wrapByte i.opcode.fields i.args = i.args := by
  have hwrap : i.opcode.fields.map (fun f => wrapByte f (i.operand f)) =
      i.opcode.fields.map i.operand := by
    refine List.map_congr_left fun f hf => ?_
    obtain ⟨h0, -⟩ := h.operand_bounds hf
    exact if_neg (by omega)
  calc List.zipWith wrapByte i.opcode.fields i.args
      = List.zipWith wrapByte i.opcode.fields (i.opcode.fields.map i.operand) := by
        rw [h.map_operand]
    _ = i.opcode.fields.map fun f => wrapByte f (i.operand f) := by
        rw [List.zipWith_map_right, List.zipWith_self]
    _ = i.args := by
        rw [hwrap, h.map_operand]

include h in
/-- The numbers of the slots are the operands, but a jump with offset hides its register. -/
theorem arguments_slotNumbers :
    arguments i.opcode (i.opcode.form.slots.filterMap i.slotNumber?) = .ok i.args := by
  have hargs := h.map_operand
  by_cases ho : i.opcode = .jpOffset
  · -- The form shows `V0`, and the register comes back as the high digit of the address.
    have hjump := h.jump ho
    obtain ⟨h0, h1⟩ := h.operand_bounds (f := .nnn) (by rw [ho]; decide)
    have hdigit : i.operand .nnn / 256 % 16 = i.operand .x := by
      rw [Field.bound] at h1
      omega
    rw [ho] at hargs ⊢
    rw [← hargs]
    have hnumbers : Opcode.jpOffset.form.slots.filterMap i.slotNumber? = [0, i.operand .nnn] := rfl
    rw [hnumbers, arguments, if_pos (.inl rfl), hdigit]
    rfl
  · have hslots : i.opcode.form.slots.filterMap i.slotNumber? = i.args := by
      rw [← hargs, ← Opcode.filterMap_field?_slots ho, List.map_filterMap]
      refine List.filterMap_congr fun s hs => ?_
      cases s with
      | offset => exact absurd hs (i.opcode.offset_not_mem_slots ho)
      | register f => rfl
      | keyword k => rfl
      | number f => rfl
    rw [hslots, arguments_of_length ho h.length, zipWith_wrapByte_args h]

end Instruction

/-! ## Mnemonics -/

theorem plainWord_mnemonic (o : Opcode) : Text.PlainWord (o.form.mnemonic.map Char.toUpper) := by
  cases o <;> decide

theorem lower_mnemonic (o : Opcode) :
    Text.lower (o.form.mnemonic.map Char.toUpper) = o.form.mnemonic := by
  cases o <;> decide

/-- The mnemonic and the kinds of the operands tell the opcode. -/
theorem opcode?_readAs (i : Instruction) (o : Opcode) :
    opcode? o.form.mnemonic (o.form.slots.map i.readAs) = some o := by
  -- Operands fit slots by their kinds only, so the search runs whatever the operands are.
  cases o <;> rfl

theorem plainWord_of_mem_slotWords {i : Instruction} (h : i.Suited) :
    ∀ w ∈ i.slotWords, Text.PlainWord w := by
  intro w hw
  obtain ⟨s, hs, rfl⟩ := List.mem_map.1 hw
  exact (Operand.ofText_slotWord h hs).1

/-- The text of an instruction that has a word is read as the instruction. -/
theorem instruction_of_text {i : Instruction} {word : Nat} {labels : Labels} {text : List Char}
    (hw : i.encode = .ok word) (hn : labels.Named) (ht : i.text = .ok text) :
    instruction labels text = .ok i := by
  obtain ⟨h, -⟩ := Instruction.encode_eq_ok_iff.1 hw
  rw [h.text_eq, Except.ok.injEq] at ht
  subst ht
  have hread : i.slotWords.map Operand.ofText = i.opcode.form.slots.map i.readAs := by
    rw [Instruction.slotWords, List.map_map]
    exact List.map_congr_left fun s hs => (Operand.ofText_slotWord h hs).2
  obtain ⟨hhead, hitems⟩ :=
    Text.cut_phrase (plainWord_mnemonic i.opcode) (plainWord_of_mem_slotWords h)
  rw [instruction]
  dsimp only
  rw [hhead, hitems, hread, lower_mnemonic, opcode?_readAs]
  dsimp only
  rw [numbers_readAs h hn fun _ hs => hs]
  dsimp only
  rw [build, arguments_slotNumbers h]
  dsimp only
  rw [hw]

/-- Every instruction that has a word has a text.  Whatever the labels are called, the text is read
as the instruction, and no other instruction that has a word has the same text. -/
theorem text_read_back (i : Instruction) (word : Nat) (h : i.encode = .ok word) :
    ∃ text, i.text = .ok text ∧
      (∀ labels : Labels, (∀ p ∈ labels, isLabelName p.1) → instruction labels text = .ok i) ∧
      ∀ (j : Instruction) (word' : Nat), j.encode = .ok word' → j.text = .ok text → j = i := by
  have hs := (Instruction.encode_eq_ok_iff.1 h).1
  refine ⟨_, hs.text_eq, ?_, ?_⟩
  · intro labels hlabels
    exact instruction_of_text h (Labels.named_of_isLabelName hlabels) hs.text_eq
  · intro j word' hj htext
    -- Both instructions are what is read without labels.
    have hn : Labels.Named [] := fun p hp => absurd hp List.not_mem_nil
    have hi := instruction_of_text h hn hs.text_eq
    have hj := instruction_of_text hj hn htext
    rw [hi] at hj
    exact (Except.ok.inj hj).symm

/-- A jump with offset hides its register, and labels that are called like its operands do not
matter. -/
theorem text_read_back_of_jump :
    (Instruction.mk .jpOffset [3, 0x345]).encode = .ok 0xB345 ∧
      instruction [(['V', '0'], 7), (['x', '3', '4', '5'], 8)] "JP V0, 0x345".toList =
        .ok ⟨.jpOffset, [3, 0x345]⟩ := by
  have h : (Instruction.mk .jpOffset [3, 0x345]).encode = .ok 0xB345 := by decide
  obtain ⟨text, ht, hread, -⟩ := text_read_back _ _ h
  have htext : (Instruction.mk .jpOffset [3, 0x345]).text = .ok "JP V0, 0x345".toList := by decide
  rw [htext, Except.ok.injEq] at ht
  subst ht
  exact ⟨h, hread _ (by decide)⟩

end Assembly

end ChipEight
