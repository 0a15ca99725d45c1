/-
Labels and values: a value that is known stays the same when more labels are defined.

The first pass of the assembler knows the labels above a line, the second knows all of them.  They
agree on a value because a label is never defined twice, and because no number can be mistaken for
a label.

Main definition: `isLabelName`, what a label may be called.

Main statements:
* `exists_read_eq_error`: a text that begins like a label is no number;
* `splitLabel?_eq_some_iff`: a label is a name and a colon at the beginning of a line;
* `value_of_extends`: a value stays the same when labels are added.
-/
import ChipEight.Assembly.Layout

namespace ChipEight

/-! ## Numbers do not begin like labels -/

namespace Literal

/-- What is trimmed at its end keeps a beginning that is not trimmed. -/
theorem exists_reverse_dropWhile_reverse {p : Char → Bool} {c : Char} (h : p c = false)
    (s : List Char) : ∃ t, ((c :: s).reverse.dropWhile p).reverse = c :: t := by
  rw [List.reverse_cons, List.dropWhile_append]
  split
  · exact ⟨[], by simp [h]⟩
  · exact ⟨(s.reverse.dropWhile p).reverse, by simp⟩

theorem isLabelStart_cases {c : Char} (h : Assembly.isLabelStart c) :
    c = '_' ∨ (65 ≤ c.toNat ∧ c.toNat ≤ 90) ∨ (97 ≤ c.toNat ∧ c.toNat ≤ 122) := by
  have hbool : (decide (65 ≤ c.val ∧ c.val ≤ 90) || (decide (97 ≤ c.val) && decide (c.val ≤ 122)) ||
      c == '_') = true := h
  simp only [Bool.or_eq_true, Bool.and_eq_true, decide_eq_true_eq, beq_iff_eq,
    UInt32.le_iff_toNat_le] at hbool
  rcases hbool with (h | h) | h
  · exact .inr (.inl h)
  · exact .inr (.inr h)
  · exact .inl h

theorem exists_core_eq {c : Char} (h : Assembly.isLabelStart c) (s : List Char) :
    ∃ t, core (c :: s) = c :: t := by
  have hc := isLabelStart_cases h
  have hbasic : basic c = c := by
    refine if_pos ?_
    rcases hc with rfl | hc | hc
    · decide
    · omega
    · omega
  have hspace : isSpace c = false := by
    rcases hc with rfl | hc | hc
    · decide
    all_goals
      have hne : c ≠ ' ' := by
        rintro rfl
        revert hc
        decide
      simp [isSpace, hne]
      omega
  rw [core, List.map_cons, hbasic, List.dropWhile_cons_of_neg (by rw [hspace]; decide)]
  exact exists_reverse_dropWhile_reverse hspace _

theorem isDigit_of_isLetter {c : Char}
    (h : (65 ≤ c.toNat ∧ c.toNat ≤ 90) ∨ (97 ≤ c.toNat ∧ c.toNat ≤ 122)) :
    isDigit 10 c = false := by
  have hdigit : ¬('0' ≤ c ∧ c ≤ '9') := by
    rintro ⟨-, h9⟩
    have h9 : c.toNat ≤ 57 := UInt32.le_iff_toNat_le.1 (Char.le_def.1 h9)
    omega
  have hhex : (hexValue? c).all (10 ≤ ·) = true := by
    rw [hexValue?, if_neg hdigit]
    split
    · rename_i hf
      have hf : 97 ≤ c.toNat := UInt32.le_iff_toNat_le.1 (Char.le_def.1 hf.1)
      simp
      omega
    · split <;> simp
      omega
  rw [isDigit, digitValue?]
  cases hv : hexValue? c with
  | none => rfl
  | some v =>
    rw [hv] at hhex
    simpa [Option.filter] using hhex

theorem magnitude_of_isLabelStart {c : Char} (h : Assembly.isLabelStart c) (s : List Char) :
    magnitude 10 (c :: s) = .error none := by
  have hrun : isGrouped 10 ((c :: s).takeWhile fun c => isDigit 10 c || c == '_') = false := by
    rcases isLabelStart_cases h with rfl | hc
    · simp [isGrouped, List.splitOn_cons_eq_if_modifyHead]
    · have hne : c ≠ '_' := by
        rintro rfl
        revert hc
        decide
      simp [isDigit_of_isLetter hc, hne, isGrouped]
  simp [magnitude, hrun]

/-- A text that begins like a label is no number. -/
theorem exists_read_eq_error {c : Char} (h : Assembly.isLabelStart c) (s : List Char) :
    ∃ e, read .told (c :: s) = .error e := by
  obtain ⟨t, ht⟩ := exists_core_eq h s
  have hc := isLabelStart_cases h
  have hne (d : Char) (hd : d.toNat < 65) : c ≠ d := by
    rintro rfl
    rcases hc with rfl | hc | hc
    · revert hd
      decide
    all_goals omega
  have hunsigned : unsigned .told (c :: t) = .error none := by
    rw [unsigned]
    · exact magnitude_of_isLabelStart h t
    · intro d u heq
      exact hne '0' (by decide) (List.cons.inj heq).1
  refine ⟨.malformed .told (c :: s), ?_⟩
  rw [read, ht, signed, hunsigned]
  · rfl
  · intro u heq
    exact hne '-' (by decide) (List.cons.inj heq).1
  · intro u heq
    exact hne '+' (by decide) (List.cons.inj heq).1

end Literal

namespace Assembly

/-! ## Names of labels -/

/-- Whether a label may be called so. -/
def isLabelName : List Char → Bool
  | [] => false
  | c :: s => isLabelStart c && s.all isLabelChar

theorem exists_cons_of_isLabelName {name : List Char} (h : isLabelName name) :
    ∃ c s, name = c :: s ∧ isLabelStart c := by
  cases name with
  | nil => cases h
  | cons c s => exact ⟨c, s, rfl, (Bool.and_eq_true_iff.1 h).1⟩

/-- A label is split off a line exactly where a name and a colon stand at its beginning. -/
theorem splitLabel?_eq_some_iff {line name rest : List Char} :
    splitLabel? line = some (name, rest) ↔
      isLabelName name ∧ ∃ after, line = name ++ ':' :: after ∧ rest = Text.trim after := by
  constructor
  · intro h
    rw [splitLabel?.eq_def] at h
    split at h
    · cases h
    · rename_i c s
      split at h
      · rename_i hc
        split at h
        · rename_i after hafter
          cases h
          refine ⟨Bool.and_eq_true_iff.2 ⟨hc, List.all_takeWhile⟩, after, ?_, rfl⟩
          rw [List.cons_append, ← hafter, List.takeWhile_append_dropWhile]
        · cases h
      · cases h
  · rintro ⟨hname, after, rfl, rfl⟩
    obtain ⟨c, s, rfl, hc⟩ := exists_cons_of_isLabelName hname
    have hs : ∀ d ∈ s, isLabelChar d := List.all_eq_true.1 (Bool.and_eq_true_iff.1 hname).2
    -- The colon ends the name, because no name holds one.
    have hcolon : isLabelChar ':' = false := by decide
    rw [List.cons_append, splitLabel?, if_pos hc, List.dropWhile_append_of_pos hs,
      List.takeWhile_append_of_pos hs, List.dropWhile_cons, List.takeWhile_cons, hcolon]
    simp

theorem isLabelName_of_mem_peelLabels {line name : List Char}
    (h : name ∈ (peelLabels line).1) : isLabelName name := by
  fun_induction peelLabels line with
  | case1 line hs => cases h
  | case2 line first rest hs names rest' hrest ih =>
    rw [hrest] at ih
    rcases List.mem_cons.1 h with rfl | h
    · exact (splitLabel?_eq_some_iff.1 hs).1
    · exact ih h

/-! ## Tables of labels -/

/-- Every name in the table begins like a label. -/
def Labels.Named (labels : Labels) : Prop :=
  ∀ p ∈ labels, ∃ c s, p.1 = c :: s ∧ isLabelStart c

theorem Labels.named_of_isLabelName {labels : Labels} (h : ∀ p ∈ labels, isLabelName p.1) :
    labels.Named :=
  fun p hp => exists_cons_of_isLabelName (h p hp)

/-- One table knows all labels of another. -/
def Labels.Extends (late early : Labels) : Prop :=
  ∀ name address, early.lookup name = some address → late.lookup name = some address

theorem Labels.Extends.refl (labels : Labels) : labels.Extends labels :=
  fun _ _ h => h

theorem Labels.Extends.trans {a b c : Labels} (h : a.Extends b) (h' : b.Extends c) : a.Extends c :=
  fun name address hc => h name address (h' name address hc)

theorem Labels.Named.of_lookup {labels : Labels} (h : labels.Named) {name : List Char}
    {address : Int} (hl : labels.lookup name = some address) :
    ∃ c s, name = c :: s ∧ isLabelStart c := by
  obtain ⟨l₁, l₂, rfl, -⟩ := List.lookup_eq_some_iff.1 hl
  exact h (name, address) (by simp)

/-- A value stays the same when labels are added. -/
theorem value_of_extends {late early : Labels} (hn : late.Named) (he : late.Extends early)
    {token : List Char} {v : Int} (h : value early token = .ok v) : value late token = .ok v := by
  rw [value] at h
  cases hl : early.lookup token with
  | some address =>
    rw [hl] at h
    rw [value, he token address hl]
    exact h
  | none =>
    rw [hl] at h
    cases hlate : late.lookup token with
    | none =>
      rw [value, hlate]
      exact h
    | some address =>
      -- A number that became a label would begin like one.
      obtain ⟨c, s, rfl, hc⟩ := hn.of_lookup hlate
      obtain ⟨e, he⟩ := Literal.exists_read_eq_error hc s
      simp only [he] at h
      cases h

end Assembly

end ChipEight
