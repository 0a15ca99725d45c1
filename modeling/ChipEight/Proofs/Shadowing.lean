/-
Which instructions come back from their words, and which words come back from their instructions.

The patterns of the table exclude each other, with one exception: the pattern of the calls of the
host fits every word that begins with a zero.  It is tried after all others of that kind, so a
call is lost if its address is the word of another instruction.

Main definitions:
* `Pattern.overlaps`: some word fits both patterns;
* `Instruction.Shadowed`: a call whose word means something else.

Main statements:
* `Pattern.eq_of_find?`: the patterns that fit a word are the one found and that of the calls;
* `Instruction.decode_eq_iff_not_shadowed`: an instruction comes back unless it is shadowed;
* `Instruction.encode_decode_inverse`: encoding and decoding undo each other but for the shadowed
  calls and the second word that clears the screen.
-/
import ChipEight.Proofs.Codec

namespace ChipEight

/-! ## Patterns that fit the same word -/

namespace Pattern

/-- Some digit of a word fits both digits of patterns. -/
def digitsMeet (a b : Option Nat) : Bool :=
  match a, b with
  | some d, some e => d == e
  | _, _ => true

/-- No digit that both patterns fix tells their words apart. -/
def overlaps (p q : Pattern) : Bool :=
  p.first == q.first && digitsMeet p.second q.second && digitsMeet p.third q.third &&
    digitsMeet p.fourth q.fourth

theorem digitsMeet_of_fitsDigit {a b : Option Nat} {digit : Nat} (ha : fitsDigit a digit)
    (hb : fitsDigit b digit) : digitsMeet a b := by
  cases a <;> cases b <;> simp_all [digitsMeet, fitsDigit]

/-- Patterns that fit the same word overlap. -/
theorem overlaps_of_fits {p q : Pattern} {word : Nat} (hp : p.fits word) (hq : q.fits word) :
    p.overlaps q := by
  simp only [fits, Bool.and_eq_true, beq_iff_eq] at hp hq
  obtain ⟨⟨⟨hp1, hp2⟩, hp3⟩, hp4⟩ := hp
  obtain ⟨⟨⟨hq1, hq2⟩, hq3⟩, hq4⟩ := hq
  simp only [overlaps, Bool.and_eq_true, beq_iff_eq]
  exact ⟨⟨⟨hp1.trans hq1.symm, digitsMeet_of_fitsDigit hp2 hq2⟩,
    digitsMeet_of_fitsDigit hp3 hq3⟩, digitsMeet_of_fitsDigit hp4 hq4⟩

/-- In the table only the pattern of the calls of the host overlaps a pattern before it. -/
theorem pairwise_table :
    table.Pairwise fun p q => p.overlaps q → q = Opcode.sys.pattern := by
  decide

theorem pattern_mem_table (o : Opcode) : o.pattern ∈ table := by
  cases o <;> decide

/-- A pattern of the table that fits a word is the one that is found, or that of the calls of the
host. -/
theorem eq_of_find? {p q : Pattern} {word : Nat} (h : table.find? (fun r => r.fits word) = some p)
    (hq : q ∈ table) (hfits : q.fits word) : q = p ∨ q = Opcode.sys.pattern := by
  obtain ⟨hp, before, after, htable, hbefore⟩ := List.find?_eq_some_iff_append.1 h
  have hpair := pairwise_table
  rw [htable] at hq hpair
  rcases List.mem_append.1 hq with hq | hq
  · -- The patterns before the one that is found do not fit.
    have hnot := hbefore q hq
    rw [hfits] at hnot
    cases hnot
  · rcases List.mem_cons.1 hq with rfl | hq
    · exact .inl rfl
    · have hlater := (List.pairwise_cons.1 (List.pairwise_append.1 hpair).2.1).1 q hq
      exact .inr (hlater (overlaps_of_fits hp hfits))

/-- A pattern that fixes all digits fits one word. -/
theorem fits_fixed_iff {o : Opcode} {a b c d word : Nat} (hw : word < 65536)
    (h : a < 16 ∧ b < 16 ∧ c < 16 ∧ d < 16) :
    fits ⟨o, a, some b, some c, some d⟩ word ↔ word = a * 4096 + b * 256 + c * 16 + d := by
  simp only [fits, fitsDigit, Bool.and_eq_true, beq_iff_eq]
  omega

/-- A pattern that fixes all digits but the last fits sixteen words. -/
theorem fits_open_iff {o : Opcode} {a b c word : Nat} (hw : word < 65536)
    (h : a < 16 ∧ b < 16 ∧ c < 16) :
    fits ⟨o, a, some b, some c, none⟩ word ↔ word / 16 = a * 256 + b * 16 + c := by
  simp only [fits, fitsDigit, Bool.and_eq_true, beq_iff_eq, and_true]
  omega

/-- The patterns of the words that begin with a zero, without that of the calls of the host. -/
def special : List Pattern :=
  clearAlias :: [Opcode.cls, .ret, .scr, .scl, .exit, .low, .high, .scd].map Opcode.pattern

theorem mem_special : ∀ q ∈ table, q ≠ Opcode.sys.pattern → q.first = 0 → q ∈ special := by
  decide

theorem special_subset : ∀ q ∈ special, q ∈ table ∧ q ≠ Opcode.sys.pattern := by
  decide

theorem exists_find? {q : Pattern} {word : Nat} (hq : q ∈ table) (hfits : q.fits word) :
    ∃ p, table.find? (fun r => r.fits word) = some p := by
  rw [← Option.isSome_iff_exists, List.find?_isSome]
  exact ⟨q, hq, hfits⟩

/-- A word is found to be a call of the host if no special pattern fits it. -/
theorem find?_eq_sys_iff {word : Nat} (hw : word < 4096) :
    table.find? (fun r => r.fits word) = some Opcode.sys.pattern ↔
      ¬∃ q ∈ special, q.fits word := by
  have hfirst : word / 4096 % 16 = 0 := by omega
  have hsys : Opcode.sys.pattern.fits word := by
    simp [Opcode.pattern, fits, fitsDigit, hfirst]
  constructor
  · rintro h ⟨q, hq, hfits⟩
    obtain ⟨htable, hne⟩ := special_subset q hq
    rcases eq_of_find? h htable hfits with heq | heq
    · exact hne heq
    · exact hne heq
  · intro h
    obtain ⟨p, hp⟩ := exists_find? (pattern_mem_table .sys) hsys
    have hfits := List.find?_some hp
    rw [hp]
    by_cases hne : p = Opcode.sys.pattern
    · rw [hne]
    · have hzero : p.first = 0 := by
        simp only [fits, Bool.and_eq_true, beq_iff_eq] at hfits
        omega
      exact absurd ⟨p, mem_special p (List.mem_of_find?_eq_some hp) hne hzero, hfits⟩ h

/-- Numbers that fit the open digits of a pattern make up a word that the pattern fits and whose
fields hold them. -/
theorem fits_base_add {v : Field → Nat} (hv : ∀ f, v f < f.bound) (o : Opcode) :
    let word := (o.packed.map fun f => v f * f.weight).foldl (· + ·) o.pattern.base
    word < 65536 ∧ o.pattern.fits word ∧ ∀ f ∈ o.packed, f.extract word = v f := by
  have hx := hv .x
  have hy := hv .y
  have hn := hv .n
  have hkk := hv .kk
  have hnnn := hv .nnn
  simp only [Field.bound] at hx hy hn hkk hnnn
  cases o <;>
    simp only [Opcode.pattern, fits, fitsDigit, base, Opcode.packed, Opcode.fields, Field.weight,
      Field.extract, Field.bound, Bool.and_eq_true, beq_iff_eq, Option.getD_some,
      Option.getD_none, List.map_cons, List.map_nil, List.foldl_cons, List.foldl_nil,
      List.forall_mem_cons, List.not_mem_nil, false_implies, implies_true, and_true] <;>
    omega

end Pattern

namespace Instruction

open Pattern (table)

/-! ## Words of operands that fit -/

/-- Operands that are missing count as zero, so all of them fit. -/
theorem Suited.admitted {i : Instruction} (h : i.Suited) : i.Admitted := by
  intro f
  by_cases hf : f ∈ i.opcode.fields
  · exact h.operand_bounds hf
  · have hpos := f.bound_pos
    rw [operand_of_not_mem_fields hf]
    exact ⟨Int.le_refl 0, by omega⟩

section Packed

variable {i : Instruction}

/-- The word of operands that fit has the digits of its pattern, and its open digits hold them. -/
theorem packedWord_spec (h : i.Admitted) :
    i.packedWord < 65536 ∧ i.opcode.pattern.fits i.packedWord ∧
      ∀ f ∈ i.opcode.packed, f.extract i.packedWord = (i.operand f).toNat := by
  refine Pattern.fits_base_add (fun f => ?_) i.opcode
  have hf := h f
  omega

theorem mem_packed_or {o : Opcode} {f : Field} (h : f ∈ o.fields) :
    f ∈ o.packed ∨ o = .jpOffset ∧ f = .x := by
  revert h
  cases o <;> cases f <;> decide

/-- The fields of the word hold the operands; the register of a jump with offset is found in its
address. -/
theorem extract_packedWord (h : i.Suited) {f : Field} (hf : f ∈ i.opcode.fields) :
    (f.extract i.packedWord : Int) = i.operand f := by
  obtain ⟨-, -, hpacked⟩ := packedWord_spec h.admitted
  rcases mem_packed_or hf with hf | ⟨ho, rfl⟩
  · rw [hpacked f hf]
    exact Int.toNat_of_nonneg (h.admitted f).1
  · have hnnn := hpacked .nnn (by rw [ho]; decide)
    have hadmitted := h.admitted .nnn
    rw [h.jump ho]
    simp only [Field.extract, Field.weight, Field.bound] at hnnn hadmitted ⊢
    omega

/-- The word of an instruction that can be encoded has the operands of the instruction. -/
theorem ofFields_packedWord (h : i.Suited) : ofFields i.opcode i.packedWord = i := by
  have hargs : (i.opcode.fields.map fun f => (f.extract i.packedWord : Int)) = i.args := by
    rw [List.map_congr_left fun f hf => extract_packedWord h hf, h.map_operand]
  rw [ofFields, hargs]

end Packed

/-! ## Instructions that come back -/

theorem word16_natCast {word : Nat} (h : word < 65536) : word16 word = word := by
  rw [word16]
  omega

theorem decode_of_find? {p : Pattern} {word : Nat} (hw : word < 65536)
    (h : table.find? (fun r => r.fits word) = some p) :
    decode word = .ok (ofFields p.opcode word) := by
  rw [decode, word16_natCast hw, h]

/-- The addresses that are words of other instructions. -/
def IsShadowedAddress (a : Int) : Prop :=
  0x0C0 ≤ a ∧ a ≤ 0x0CF ∨ a = 0x0E0 ∨ a = 0x0EE ∨ 0x0FB ≤ a ∧ a ≤ 0x0FF ∨ a = 0x230

/-- A call of the host whose word means something else. -/
def Shadowed (i : Instruction) : Prop :=
  ∃ a, i = ⟨.sys, [a]⟩ ∧ IsShadowedAddress a

theorem special_fits_iff {word : Nat} (hw : word < 65536) :
    (∃ q ∈ Pattern.special, q.fits word) ↔ IsShadowedAddress word := by
  simp (disch := decide) only [Pattern.special, Pattern.clearAlias, Opcode.pattern, List.map_cons,
    List.map_nil, List.mem_cons, List.not_mem_nil, or_false, exists_eq_or_imp, exists_eq_left,
    Pattern.fits_fixed_iff hw, Pattern.fits_open_iff hw, IsShadowedAddress]
  omega

/-- The word of a call of the host is found to be one unless the call is shadowed. -/
theorem find?_packedWord_sys_iff {i : Instruction} (h : i.Suited) (ho : i.opcode = .sys) :
    table.find? (fun r => r.fits i.packedWord) = some Opcode.sys.pattern ↔ ¬i.Shadowed := by
  obtain ⟨o, args⟩ := i
  obtain rfl : o = .sys := ho
  obtain ⟨a, rfl⟩ := List.length_eq_one_iff.1 h.length
  have hoperand : (⟨.sys, [a]⟩ : Instruction).operand .nnn = a := rfl
  have hword : (⟨.sys, [a]⟩ : Instruction).packedWord = a.toNat := by
    simp [packedWord, Opcode.packed, Opcode.fields, Opcode.pattern, Pattern.base, Field.weight,
      hoperand]
  have hbounds := h.admitted .nnn
  rw [hoperand, Field.bound] at hbounds
  rw [hword, Pattern.find?_eq_sys_iff (by omega), special_fits_iff (by omega),
    Int.toNat_of_nonneg hbounds.1]
  simp [Shadowed]

/-- An instruction comes back from its word unless it is shadowed. -/
theorem decode_eq_iff_not_shadowed {i : Instruction} {word : Nat} (h : i.encode = .ok word) :
    decode word = .ok i ↔ ¬i.Shadowed := by
  obtain ⟨hs, rfl⟩ := encode_eq_ok_iff.1 h
  obtain ⟨hlt, hfits, -⟩ := packedWord_spec hs.admitted
  have hmem := Pattern.pattern_mem_table i.opcode
  obtain ⟨p, hp⟩ := Pattern.exists_find? hmem hfits
  -- The pattern found may have the right opcode and still not be its own: it is then the second
  -- one that clears the screen.
  have hdecode : decode i.packedWord = .ok i ↔ p = i.opcode.pattern := by
    rw [decode_of_find? hlt hp, Except.ok.injEq]
    constructor
    · intro heq
      have hopcode : p.opcode = i.opcode := by rw [← heq, opcode_ofFields]
      rcases Pattern.eq_of_find? hp hmem hfits with heq | heq
      · exact heq.symm
      · rcases Pattern.eq_clearAlias_or_eq_pattern p (List.mem_of_find?_eq_some hp) with hp' | hp'
        · rw [hp'] at hopcode
          rw [← hopcode] at heq
          cases heq
        · rw [hp', hopcode]
    · intro heq
      rw [heq, Pattern.opcode_pattern, ofFields_packedWord hs]
  rw [hdecode]
  by_cases ho : i.opcode = .sys
  · rw [← find?_packedWord_sys_iff hs ho, hp, Option.some.injEq, ho]
  · rcases Pattern.eq_of_find? hp hmem hfits with heq | heq
    · refine iff_of_true heq.symm ?_
      rintro ⟨a, rfl, -⟩
      exact ho rfl
    · exact absurd (congrArg Pattern.opcode heq) (by simpa using ho)

/-! ## Words that are reached -/

theorem encode_of_decode_int {word : Int} {i : Instruction} (h : decode word = .ok i) :
    i.encode = .ok (canonical (word16 word)) := by
  refine encode_of_decode (word16_lt word) ?_
  rw [← decode_mod] at h
  rw [← h]
  congr 1
  rw [word16]
  omega

/-- The words of instructions are those that are decoded. -/
theorem exists_encode_iff {word : Nat} :
    (∃ i : Instruction, i.encode = .ok word) ↔ word < 65536 ∧ ∃ i, decode word = .ok i := by
  constructor
  · rintro ⟨i, h⟩
    obtain ⟨hs, rfl⟩ := encode_eq_ok_iff.1 h
    obtain ⟨hlt, hfits, -⟩ := packedWord_spec hs.admitted
    obtain ⟨p, hp⟩ := Pattern.exists_find? (Pattern.pattern_mem_table i.opcode) hfits
    exact ⟨hlt, _, decode_of_find? hlt hp⟩
  · rintro ⟨hlt, i, h⟩
    by_cases halias : word = 0x0230
    · subst halias
      exact ⟨⟨.sys, [0x0230]⟩, rfl⟩
    · refine ⟨i, ?_⟩
      rw [encode_of_decode hlt h, canonical, if_neg halias]

/-- The words of instructions that were decoded: the second word that clears the screen is not
among them. -/
theorem exists_encode_decode_iff {word : Nat} :
    (∃ (w : Int) (i : Instruction), decode w = .ok i ∧ i.encode = .ok word) ↔
      (word < 65536 ∧ ∃ i, decode word = .ok i) ∧ word ≠ 0x0230 := by
  constructor
  · rintro ⟨w, i, hd, he⟩
    refine ⟨exists_encode_iff.1 ⟨i, he⟩, ?_⟩
    rw [encode_of_decode_int hd, Except.ok.injEq] at he
    rw [← he, canonical]
    split
    · decide
    · assumption
  · rintro ⟨⟨hlt, i, hd⟩, hne⟩
    refine ⟨word, i, hd, ?_⟩
    rw [encode_of_decode hlt hd, canonical, if_neg hne]

/-- Exactly the instructions with suited operands have a word.  All of them come back from it but
the calls of the host that are shadowed, and all words that are decoded come back from their
instructions but the second one that clears the screen.  So every word that is decoded is the word
of an instruction, and every one but that is the word of an instruction that was decoded. -/
theorem encode_decode_inverse :
    (∀ i : Instruction, (i.Suited → ∃ word, i.encode = .ok word) ∧
      (¬i.Suited → ∃ e, i.encode = .error e)) ∧
    (∀ (i : Instruction) (word : Nat), i.encode = .ok word →
      (decode word = .ok i ↔ ¬i.Shadowed)) ∧
    (∀ (word : Int) (i : Instruction), decode word = .ok i →
      i.encode = .ok (if word % 65536 = 0x0230 then 0x00E0 else (word % 65536).toNat)) ∧
    (∀ word : Nat, (∃ i : Instruction, i.encode = .ok word) ↔
      word < 65536 ∧ ∃ i, decode word = .ok i) ∧
    ∀ word : Nat, (∃ (w : Int) (i : Instruction), decode w = .ok i ∧ i.encode = .ok word) ↔
      (word < 65536 ∧ ∃ i, decode word = .ok i) ∧ word ≠ 0x0230 := by
  refine ⟨fun i => ⟨fun hs => ⟨_, encode_eq_ok_iff.2 ⟨hs, rfl⟩⟩, fun hs => ?_⟩,
    fun _ _ h => decode_eq_iff_not_shadowed h, fun word i h => ?_, fun _ => exists_encode_iff,
    fun _ => exists_encode_decode_iff⟩
  · cases he : i.encode with
    | ok word => exact absurd (encode_eq_ok_iff.1 he).1 hs
    | error e => exact ⟨e, rfl⟩
  · rw [encode_of_decode_int h, canonical, word16]
    have hiff : (word % 65536).toNat = 0x0230 ↔ word % 65536 = 0x0230 := by omega
    simp only [hiff]

/-- A jump with offset and a call of the host at the address of another instruction: both have a
word, and the call does not come back. -/
theorem encode_decode_inverse_jump_and_call :
    (⟨.jpOffset, [3, 0x345]⟩ : Instruction).encode = .ok 0xB345 ∧
      decode 0xB345 = .ok ⟨.jpOffset, [3, 0x345]⟩ ∧
      (⟨.sys, [0x0FD]⟩ : Instruction).encode = .ok 0x00FD ∧
      decode 0x00FD ≠ .ok ⟨.sys, [0x0FD]⟩ := by
  have hjump : (⟨.jpOffset, [3, 0x345]⟩ : Instruction).encode = .ok 0xB345 := rfl
  have hcall : (⟨.sys, [0x0FD]⟩ : Instruction).encode = .ok 0x00FD := rfl
  refine ⟨hjump, ?_, hcall, ?_⟩
  · refine (encode_decode_inverse.2.1 _ _ hjump).2 ?_
    rintro ⟨a, ha, -⟩
    cases ha
  · intro hd
    refine (encode_decode_inverse.2.1 _ _ hcall).1 hd ⟨0x0FD, rfl, ?_⟩
    unfold IsShadowedAddress
    decide

/-- The second word that clears the screen is the word of an instruction, though not of one that
was decoded. -/
theorem encode_reaches_clearAlias :
    (⟨.sys, [0x0230]⟩ : Instruction).encode = .ok 0x0230 ∧
      ¬∀ word : Nat, (∃ i : Instruction, i.encode = .ok word) ↔
        (word < 65536 ∧ ∃ i, decode word = .ok i) ∧ word ≠ 0x0230 := by
  have hencode : (⟨.sys, [0x0230]⟩ : Instruction).encode = .ok 0x0230 := rfl
  exact ⟨hencode, fun h => ((h 0x0230).1 ⟨_, hencode⟩).2 rfl⟩

end Instruction

end ChipEight
