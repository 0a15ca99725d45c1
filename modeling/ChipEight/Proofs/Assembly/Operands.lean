/-
The number of operands of an instruction.

The form of an opcode holds a number for each field of the opcode, and only keywords besides.  So
operands that fit the form give as many numbers as the opcode has fields, and a shift may be written
with a single one, which is then used twice.

Main definition: `Counts`, an opcode has the numbers that it needs.

Main statements:
* `counts_of_opcode?`: an opcode that is written has the numbers that it needs;
* `length_arguments`: when an instruction is put together, there is an operand for each field;
* `instruction_ne_arity`: no instruction is refused for the number of its operands.
-/
import ChipEight.Proofs.Assembly.Written

namespace ChipEight

/-! ## Numbers in forms -/

/-- Whether a number is read from what stands in the slot. -/
def Slot.hasNumber : Slot → Bool
  | .keyword _ => false
  | _ => true

/-- A form holds a number for each field. -/
theorem Opcode.countP_hasNumber (o : Opcode) :
    o.form.slots.countP Slot.hasNumber = o.fields.length := by
  cases o <;> rfl

namespace Assembly

/-! ## Numbers of operands -/

/-- Whether the operand contributes a number. -/
def Operand.hasNumber : Operand → Bool
  | .keyword _ => false
  | _ => true

theorem Operand.hasNumber_of_fits {s : Slot} {o : Operand} (h : fits s o) :
    o.hasNumber = s.hasNumber := by
  cases s with
  | register f => cases o <;> first | rfl | cases h
  | offset => cases o <;> first | rfl | cases h
  | keyword k => cases o <;> first | rfl | cases h
  | number f => cases o <;> first | rfl | cases h

theorem countP_of_slotsFit {ss : List Slot} {os : List Operand} (h : slotsFit ss os) :
    os.countP Operand.hasNumber = ss.countP Slot.hasNumber := by
  fun_induction slotsFit ss os with
  | case1 => rfl
  | case2 s ss o os ih =>
    obtain ⟨hs, hrest⟩ := Bool.and_eq_true_iff.1 h
    rw [List.countP_cons, List.countP_cons, ih hrest, Operand.hasNumber_of_fits hs]
  | case3 => cases h

theorem Operand.length_number? {labels : Labels} {o : Operand} {n : Option Int}
    (h : o.number? labels = .ok n) : n.toList.length = if o.hasNumber then 1 else 0 := by
  cases o with
  | register x =>
    cases h
    rfl
  | keyword k =>
    cases h
    rfl
  | value token =>
    rw [number?] at h
    cases hv : Assembly.value labels token with
    | error e =>
      rw [hv] at h
      cases h
    | ok v =>
      rw [hv] at h
      cases h
      rfl

/-- Every operand but a keyword contributes a number. -/
theorem length_numbers {labels : Labels} {os : List Operand} {ns : List Int}
    (h : numbers labels os = .ok ns) : ns.length = os.countP Operand.hasNumber := by
  induction os generalizing ns with
  | nil =>
    cases h
    rfl
  | cons o os ih =>
    rw [numbers] at h
    cases ho : o.number? labels with
    | error e =>
      rw [ho] at h
      cases h
    | ok n =>
      cases hrest : numbers labels os with
      | error e =>
        rw [ho, hrest] at h
        cases h
      | ok rest =>
        rw [ho, hrest] at h
        cases h
        rw [List.length_append, Operand.length_number? ho, ih hrest, List.countP_cons, Nat.add_comm]

theorem eq_noValue_of_value_eq_error {labels : Labels} {token : List Char} {e : Cause}
    (h : value labels token = .error e) : e = .noValue token := by
  rw [value] at h
  split at h
  · cases h
  · split at h
    · cases h
    · cases h
      rfl

theorem Operand.exists_token_of_number?_eq_error {labels : Labels} {o : Operand} {e : Cause}
    (h : o.number? labels = .error e) : ∃ token, e = .noValue token := by
  cases o with
  | register x => cases h
  | keyword k => cases h
  | value token =>
    rw [number?] at h
    cases hv : Assembly.value labels token with
    | error e' =>
      rw [hv] at h
      cases h
      exact ⟨token, eq_noValue_of_value_eq_error hv⟩
    | ok v =>
      rw [hv] at h
      cases h

/-- What is wrong with numbers is that one of them has no value. -/
theorem exists_token_of_numbers_eq_error {labels : Labels} {os : List Operand} {e : Cause}
    (h : numbers labels os = .error e) : ∃ token, e = .noValue token := by
  induction os with
  | nil => cases h
  | cons o os ih =>
    rw [numbers] at h
    cases ho : o.number? labels with
    | error e' =>
      rw [ho] at h
      cases h
      exact Operand.exists_token_of_number?_eq_error ho
    | ok n =>
      rw [ho] at h
      cases hrest : numbers labels os with
      | error e' =>
        rw [hrest] at h
        cases h
        exact ih hrest
      | ok rest =>
        rw [hrest] at h
        cases h

/-- There is a number for each field of the opcode, or a single one for a shift. -/
def Counts (o : Opcode) (ns : List Int) : Prop :=
  ns.length = o.fields.length ∨ (o = .shr ∨ o = .shl) ∧ ns.length = 1

theorem countP_of_shortForm? {o : Opcode} {f : Form} (h : shortForm? o = some f) :
    (o = .shr ∨ o = .shl) ∧ f.slots.countP Slot.hasNumber = 1 := by
  rw [shortForm?.eq_def] at h
  split at h
  · cases h
    exact ⟨.inl rfl, rfl⟩
  · cases h
    exact ⟨.inr rfl, rfl⟩
  · cases h

/-- An opcode that is written has the numbers that it needs. -/
theorem counts_of_opcode? {mnemonic : List Char} {os : List Operand} {o : Opcode}
    {labels : Labels} {ns : List Int} (ho : opcode? mnemonic os = some o)
    (hns : numbers labels os = .ok ns) : Counts o ns := by
  have hwritten := List.find?_some ho
  rw [isWritten, Bool.or_eq_true] at hwritten
  rcases hwritten with hform | hshort
  · have hfit := (Bool.and_eq_true_iff.1 hform).2
    exact .inl (by rw [length_numbers hns, countP_of_slotsFit hfit, o.countP_hasNumber])
  · cases hf : shortForm? o with
    | none =>
      rw [hf] at hshort
      cases hshort
    | some f =>
      rw [hf] at hshort
      have hfit := (Bool.and_eq_true_iff.1 hshort).2
      obtain ⟨hshift, hcount⟩ := countP_of_shortForm? hf
      exact .inr ⟨hshift, by rw [length_numbers hns, countP_of_slotsFit hfit, hcount]⟩

/-! ## Instructions -/

theorem exists_register_of_arguments_eq_error {o : Opcode} {ns : List Int} {e : Cause}
    (h : arguments o ns = .error e) : ∃ x address, e = .offsetRegister x address := by
  rw [arguments.eq_def] at h
  split at h
  · cases h
  · cases h
  · rename_i x address
    dsimp only at h
    split at h
    · cases h
    · cases h
      exact ⟨x, address, rfl⟩
  · cases h

theorem encode_ne_arity {o : Opcode} {args : List Int} (h : args.length = o.fields.length)
    (o' : Opcode) (given : Nat) : (Instruction.mk o args).encode ≠ .error (.arity o' given) := by
  rw [Instruction.encode, if_neg (by simp [h])]
  split
  · simp
  · split <;> simp

/-- When an instruction is put together, there is an operand for each field. -/
theorem length_arguments {o : Opcode} {ns args : List Int} (h : Counts o ns)
    (hargs : arguments o ns = .ok args) : args.length = o.fields.length := by
  rcases h with hlength | ⟨hshift, hone⟩
  · by_cases ho : o = .jpOffset
    · subst ho
      obtain ⟨x, address, rfl⟩ := List.length_eq_two.1 hlength
      rw [arguments] at hargs
      split at hargs
      · cases hargs
        rfl
      · cases hargs
    · rw [arguments_of_length ho hlength] at hargs
      cases hargs
      rw [List.length_zipWith, hlength, Nat.min_self]
  · obtain ⟨x, rfl⟩ := List.length_eq_one_iff.1 hone
    rcases hshift with rfl | rfl
    · cases hargs
      rfl
    · cases hargs
      rfl

/-- No instruction is refused for the number of its operands. -/
theorem instruction_ne_arity (labels : Labels) (text : List Char) (o : Opcode) (given : Nat) :
    instruction labels text ≠ .error (.encoding (.arity o given)) := by
  intro h
  rw [instruction] at h
  dsimp only at h
  split at h
  · cases h
  · rename_i o' ho
    split at h
    · rename_i e hns
      cases h
      obtain ⟨token, he⟩ := exists_token_of_numbers_eq_error hns
      cases he
    · rename_i ns hns
      rw [build] at h
      split at h
      · rename_i e hargs
        cases h
        obtain ⟨x, address, he⟩ := exists_register_of_arguments_eq_error hargs
        cases he
      · rename_i args hargs
        split at h
        · cases h
        · rename_i e hw
          cases h
          exact encode_ne_arity (length_arguments (counts_of_opcode? ho hns) hargs) o given hw

end Assembly

end ChipEight
