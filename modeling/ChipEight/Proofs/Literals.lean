/-
Which texts are numbers in hexadecimal.

A literal is groups of digits with single underscores between them, behind a mark and a sign or
without them, with blanks around it.  Every script has digits and blanks of its own; the information
separators are blanks that may not stand around a literal.

Main definitions:
* `Shows`: digits show a number, in small letters or capitals, with zeros in front or without;
* `Grouped`, `Unsigned`, `Signed`: the parts of a literal;
* `IsHex`: a text is a hexadecimal literal;
* `Writes`: a number is written with its mark or without it.

Main statements:
* `shows_iff`: digits show the number that they are read as;
* `read_hex_eq_ok_iff`: what can be read in hexadecimal is a hexadecimal literal, and the other way
  round;
* `isSpace_basic`: which blanks may stand around a literal;
* `isHex_of_surrounded`: a number that is written is a literal.
-/
import ChipEight.Proofs.Numerals
import ChipEight.Proofs.Text.Lines
import Mathlib.Data.List.Induction

namespace ChipEight.Literal

/-! ## Digits in small letters and capitals -/

section Digits

variable {c : Char} {d n : Nat}

theorem toLower_of_hexValue? (h : hexValue? c = some d) : d < 16 ∧ c.toLower = d.digitChar := by
  have hall : (hexValue? c).all fun d => d < 16 ∧ c.toLower = d.digitChar :=
    forall_basic (p := fun c => (hexValue? c).all fun d => d < 16 ∧ c.toLower = d.digitChar)
      (by decide) (lt_of_hexValue? h)
  rw [h] at hall
  exact of_decide_eq_true hall

theorem hexValue?_toLower (c : Char) : hexValue? c.toLower = hexValue? c :=
  forall_char (p := fun c => hexValue? c.toLower = hexValue? c) (by decide)
    (fun _ hlower _ => by rw [hlower]) c

theorem digitValue?_toLower (radix : Nat) (c : Char) :
    digitValue? radix c.toLower = digitValue? radix c := by
  rw [digitValue?, hexValue?_toLower, digitValue?]

theorem isDigit_iff : isDigit 16 c ↔ ∃ d < 16, c.toLower = d.digitChar := by
  rw [isDigit, Option.isSome_iff_exists]
  constructor
  · rintro ⟨d, hd⟩
    exact ⟨d, toLower_of_hexValue? (Option.filter_eq_some_iff.1 hd).1⟩
  · rintro ⟨d, hd, hc⟩
    exact ⟨d, by rw [← digitValue?_toLower, hc, digitValue?_digitChar (by decide) hd]⟩

theorem horner_map_toLower (radix n : Nat) (s : List Char) :
    horner radix n (s.map Char.toLower) = horner radix n s := by
  induction s generalizing n with
  | nil => rfl
  | cons c s ih => rw [List.map_cons, horner, digitValue?_toLower, ih, horner]

/-- Digits are those of the number that they show, after zeros. -/
theorem exists_eq_zeros_append {radix : Nat} (hr : 1 < radix) (hr' : radix ≤ 16) {s : List Char}
    (hs : s ≠ []) (h : ∀ c ∈ s, ∃ d < radix, c = d.digitChar) :
    ∃ zeros, s = List.replicate zeros '0' ++ Nat.toDigits radix (horner radix 0 s) := by
  induction s using List.reverseRecOn with
  | nil => exact absurd rfl hs
  | append_singleton s c ih =>
    obtain ⟨d, hd, rfl⟩ := h c (by simp)
    have hvalue : horner radix 0 (s ++ [d.digitChar]) = horner radix 0 s * radix + d := by
      rw [horner_append, horner, digitValue?_digitChar hr' hd, horner, Option.getD_some]
    rw [hvalue]
    by_cases hnil : s = []
    · subst hnil
      refine ⟨0, ?_⟩
      rw [horner, Nat.zero_mul, Nat.zero_add, Nat.toDigits_of_lt_base hd]
      rfl
    obtain ⟨zeros, hzeros⟩ := ih hnil fun c hc => h c (by simp [hc])
    -- If all digits so far are zeros, the last of them gives way to the next digit.
    rcases Nat.eq_zero_or_pos (horner radix 0 s) with hzero | hpos
    · refine ⟨zeros + 1, ?_⟩
      rw [hzero, Nat.toDigits_of_lt_base (by omega)] at hzeros
      rw [hzero, Nat.zero_mul, Nat.zero_add, Nat.toDigits_of_lt_base hd, List.replicate_succ',
        hzeros]
      rfl
    · refine ⟨zeros, ?_⟩
      have hdiv : (horner radix 0 s * radix + d) / radix = horner radix 0 s := by
        rw [Nat.mul_comm, Nat.mul_add_div (by omega), Nat.div_eq_of_lt hd, Nat.add_zero]
      have hmod : (horner radix 0 s * radix + d) % radix = d := Nat.mul_add_mod_of_lt hd
      have hge : ¬horner radix 0 s * radix + d < radix := by
        have := Nat.le_mul_of_pos_left radix hpos
        omega
      rw [Nat.toDigits_eq_if hr, if_neg hge, hdiv, hmod, ← List.append_assoc, ← hzeros]

end Digits

/-- The digits show the number: in small letters, they are zeros and the digits of the number. -/
def Shows (digits : List Char) (n : Nat) : Prop :=
  ∃ zeros, digits.map Char.toLower = List.replicate zeros '0' ++ Nat.toDigits 16 n

theorem shows_iff {digits : List Char} {n : Nat} :
    Shows digits n ↔ digits ≠ [] ∧ (∀ c ∈ digits, isDigit 16 c) ∧ horner 16 0 digits = n := by
  constructor
  · rintro ⟨zeros, h⟩
    refine ⟨?_, fun c hc => ?_, ?_⟩
    · rintro rfl
      exact Nat.toDigits_ne_nil (List.append_eq_nil_iff.1 h.symm).2
    · have hmem : c.toLower ∈ digits.map Char.toLower := List.mem_map_of_mem hc
      rw [h] at hmem
      exact isDigit_iff.2 (exists_of_mem_zeros_append (by decide) hmem)
    · rw [← horner_map_toLower, h, horner_replicate_zero,
        horner_toDigits (by decide) (by decide)]
  · rintro ⟨hne, hdigits, rfl⟩
    rw [Shows, ← horner_map_toLower]
    refine exists_eq_zeros_append (by decide) (by decide) (by simpa using hne) ?_
    simpa [isDigit_iff] using hdigits

/-! ## Groups of digits -/

/-- Groups of digits, with single underscores between them, show the number. -/
def Grouped (s : List Char) (n : Nat) : Prop :=
  ∃ groups, s = ['_'].intercalate groups ∧ (∀ group ∈ groups, group ≠ []) ∧
    Shows groups.flatten n

section Groups

variable {s : List Char} {n : Nat}

theorem isGrouped_iff {radix : Nat} :
    isGrouped radix s ↔ ∀ group ∈ s.splitOn '_', group ≠ [] ∧ ∀ c ∈ group, isDigit radix c := by
  simp [isGrouped]

/-- Groups of digits are what is taken for them, and show what they are read as. -/
theorem grouped_iff : Grouped s n ↔ isGrouped 16 s ∧ horner 16 0 (ungrouped s) = n := by
  have hunderscore {group : List Char} (h : ∀ c ∈ group, isDigit 16 c) : '_' ∉ group :=
    fun hc => absurd (h '_' hc) (by decide)
  rw [isGrouped_iff]
  constructor
  · rintro ⟨groups, rfl, hne, hshows⟩
    obtain ⟨hflatten, hdigits, hvalue⟩ := shows_iff.1 hshows
    have hgroup : ∀ group ∈ groups, ∀ c ∈ group, isDigit 16 c := fun group hg c hc =>
      hdigits c (List.mem_flatten_of_mem hg hc)
    have hgroups : groups ≠ [] := by
      rintro rfl
      exact hflatten rfl
    rw [List.splitOn_intercalate '_' (fun group hg => hunderscore (hgroup group hg)) hgroups,
      ungrouped, Text.filter_intercalate fun group hg => hunderscore (hgroup group hg)]
    exact ⟨fun group hg => ⟨hne group hg, hgroup group hg⟩, hvalue⟩
  · rintro ⟨h, rfl⟩
    have hsplit : s = ['_'].intercalate (s.splitOn '_') := (List.intercalate_splitOn '_').symm
    refine ⟨s.splitOn '_', hsplit, fun group hg => (h group hg).1, shows_iff.2 ⟨?_, ?_, ?_⟩⟩
    · obtain ⟨group, hg⟩ := List.exists_mem_of_ne_nil _ (List.splitOn_ne_nil '_' s)
      intro hnil
      exact (h group hg).1 (List.flatten_eq_nil_iff.1 hnil group hg)
    · intro c hc
      obtain ⟨group, hg, hcg⟩ := List.mem_flatten.1 hc
      exact (h group hg).2 c hcg
    · rw [← Text.filter_intercalate fun group hg => hunderscore (h group hg).2, ← hsplit, ungrouped]

/-- Groups of digits consist of digits and underscores. -/
theorem Grouped.isDigit_or_eq (h : Grouped s n) {c : Char} (hc : c ∈ s) :
    isDigit 16 c ∨ c = '_' := by
  obtain ⟨groups, rfl, -, hshows⟩ := h
  by_contra hnone
  rw [not_or] at hnone
  refine Text.not_mem_intercalate (by simpa using hnone.2) (fun group hg hcg => ?_) hc
  exact hnone.1 ((shows_iff.1 hshows).2.1 c (List.mem_flatten_of_mem hg hcg))

theorem magnitude_hex_eq_ok_iff : magnitude 16 s = .ok n ↔ Grouped s n := by
  rw [magnitude]
  constructor
  · intro h
    simp only [Bool.not_eq_true', Nat.reduceEqDiff, false_and, if_false] at h
    split at h
    · cases h
    rename_i hgrouped
    split at h
    · cases h
    rename_i hlength
    -- The run of digits and underscores is all there is.
    have hrun := (List.takeWhile_prefix fun c => isDigit 16 c || c == '_').eq_of_length
      (Nat.le_antisymm (List.takeWhile_prefix _).length_le (Nat.not_lt.1 hlength))
    rw [hrun] at h hgrouped
    exact grouped_iff.2 ⟨by simpa using hgrouped, Except.ok.inj h⟩
  · intro h
    have hrun : s.takeWhile (fun c => isDigit 16 c || c == '_') = s := by
      rw [List.takeWhile_eq_self_iff]
      intro c hc
      simpa using h.isDigit_or_eq hc
    obtain ⟨hgrouped, hvalue⟩ := grouped_iff.1 h
    simp [hrun, hgrouped, hvalue]

end Groups

/-! ## Marks and signs -/

/-- Groups of digits, behind the mark of the radix or without it, show the number.  An underscore
may follow the mark. -/
inductive Unsigned : List Char → Nat → Prop
  | bare {s : List Char} {n : Nat} : Grouped s n → Unsigned s n
  | marked {x : Char} {s : List Char} {n : Nat} : x = 'x' ∨ x = 'X' → Grouped s n →
    Unsigned ('0' :: x :: s) n
  | underscored {x : Char} {s : List Char} {n : Nat} : x = 'x' ∨ x = 'X' → Grouped s n →
    Unsigned ('0' :: x :: '_' :: s) n

/-- A number, behind a sign or without one. -/
inductive Signed : List Char → Int → Prop
  | bare {s : List Char} {n : Nat} : Unsigned s n → Signed s n
  | plus {s : List Char} {n : Nat} : Unsigned s n → Signed ('+' :: s) n
  | minus {s : List Char} {n : Nat} : Unsigned s n → Signed ('-' :: s) (-n)

section Signs

variable {s : List Char} {n : Nat} {v : Int} {c : Char}

theorem Grouped.ne_nil (h : Grouped s n) : s ≠ [] := by
  rintro rfl
  exact absurd (grouped_iff.1 h).1 (by decide)

theorem Grouped.head_ne (h : Grouped (c :: s) n) : c ≠ '_' := by
  rintro rfl
  have hgroups := isGrouped_iff.1 (grouped_iff.1 h).1
  rw [List.splitOn_cons_eq_if_modifyHead, if_pos (by decide)] at hgroups
  exact (hgroups [] List.mem_cons_self).1 rfl

theorem Unsigned.isDigit_or_mem (h : Unsigned s n) (hc : c ∈ s) :
    isDigit 16 c ∨ c ∈ ['_', 'x', 'X'] := by
  have hgroup {t : List Char} (h : Grouped t n) (hc : c ∈ t) :
      isDigit 16 c ∨ c ∈ ['_', 'x', 'X'] :=
    (h.isDigit_or_eq hc).imp_right fun hc => by simp [hc]
  have hmark {x : Char} (hx : x = 'x' ∨ x = 'X') : x ∈ ['_', 'x', 'X'] := by
    rcases hx with rfl | rfl <;> decide
  have hzero : isDigit 16 '0' ∨ '0' ∈ ['_', 'x', 'X'] := by decide
  cases h with
  | bare h => exact hgroup h hc
  | marked hx h =>
    rcases List.mem_cons.1 hc with rfl | hc
    · exact hzero
    rcases List.mem_cons.1 hc with rfl | hc
    · exact .inr (hmark hx)
    · exact hgroup h hc
  | underscored hx h =>
    rcases List.mem_cons.1 hc with rfl | hc
    · exact hzero
    rcases List.mem_cons.1 hc with rfl | hc
    · exact .inr (hmark hx)
    rcases List.mem_cons.1 hc with rfl | hc
    · exact .inr List.mem_cons_self
    · exact hgroup h hc

theorem unsigned_hex_of_marked (hc : c = 'x' ∨ c = 'X') :
    unsigned .hex ('0' :: c :: s) = magnitude 16 (afterMark s) := by
  rw [unsigned, if_pos hc]

theorem unsigned_hex_of_not_marked (h : ∀ x t, s = '0' :: x :: t → ¬(x = 'x' ∨ x = 'X')) :
    unsigned .hex s = magnitude 16 s := by
  rw [unsigned.eq_def]
  split
  · contradiction
  · rw [if_neg (h _ _ rfl)]
  · rfl
  · contradiction
  · contradiction

theorem unsigned_hex_eq_ok_iff : unsigned .hex s = .ok n ↔ Unsigned s n := by
  constructor
  · intro h
    by_cases hmark : ∃ x t, s = '0' :: x :: t ∧ (x = 'x' ∨ x = 'X')
    · obtain ⟨x, t, rfl, hx⟩ := hmark
      rw [unsigned_hex_of_marked hx, magnitude_hex_eq_ok_iff, afterMark.eq_def] at h
      split at h
      · exact .underscored hx h
      · exact .marked hx h
    · rw [unsigned_hex_of_not_marked fun x t hs hx => hmark ⟨x, t, hs, hx⟩,
        magnitude_hex_eq_ok_iff] at h
      exact .bare h
  · intro h
    cases h with
    | bare h =>
      rw [unsigned_hex_of_not_marked, magnitude_hex_eq_ok_iff.2 h]
      rintro x t rfl hx
      rcases h.isDigit_or_eq (by simp : x ∈ '0' :: x :: t) with hdigit | rfl
      · rcases hx with rfl | rfl <;> exact absurd hdigit (by decide)
      · exact absurd hx (by decide)
    | marked hx h =>
      rename_i t
      have hafter : afterMark t = t := by
        rw [afterMark]
        rintro u rfl
        exact h.head_ne rfl
      rw [unsigned_hex_of_marked hx, hafter, magnitude_hex_eq_ok_iff.2 h]
    | underscored hx h => rw [unsigned_hex_of_marked hx, afterMark, magnitude_hex_eq_ok_iff.2 h]

theorem Unsigned.ne_sign (h : Unsigned (c :: s) n) : c ≠ '-' ∧ c ≠ '+' := by
  constructor <;>
  · rintro rfl
    exact absurd (h.isDigit_or_mem List.mem_cons_self) (by decide)

theorem signed_hex_eq_ok_iff : signed .hex s = .ok v ↔ Signed s v := by
  have hmap {t : List Char} {f : Int → Int} :
      Except.map f (do let n ← unsigned .hex t; pure (n : Int)) = .ok v ↔
        ∃ n : Nat, Unsigned t n ∧ f n = v := by
    simp only [← unsigned_hex_eq_ok_iff]
    cases unsigned .hex t <;> simp [Except.map]
  constructor
  · intro h
    rw [signed.eq_def] at h
    split at h <;> obtain ⟨n, hn, rfl⟩ := hmap.1 h
    · exact .minus hn
    · exact .plus hn
    · exact .bare hn
  · intro h
    cases h with
    | bare h =>
      rename_i n
      rw [signed]
      · exact hmap.2 ⟨n, h, rfl⟩
      · rintro t rfl
        exact h.ne_sign.1 rfl
      · rintro t rfl
        exact h.ne_sign.2 rfl
    | plus h => exact hmap.2 ⟨_, h, rfl⟩
    | minus h => exact hmap.2 ⟨_, h, rfl⟩

end Signs

/-! ## Literals -/

/-- The text is a hexadecimal literal: in basic characters, it is a number, behind a sign or
without one, with blanks around it. -/
def IsHex (s : List Char) (v : Int) : Prop :=
  Text.Surrounded isSpace (Signed · v) (s.map basic)

section Literals

variable {s t : List Char} {n : Nat} {v : Int} {c : Char}

theorem Signed.ne_nil (h : Signed s v) : s ≠ [] := by
  rintro rfl
  cases h with
  | bare h =>
    cases h with
    | bare h => exact h.ne_nil rfl

theorem Signed.isDigit_or_mem (h : Signed s v) (hc : c ∈ s) :
    isDigit 16 c ∨ c ∈ ['-', '+', '_', 'x', 'X'] := by
  have hunsigned {t : List Char} {n : Nat} (h : Unsigned t n) (hc : c ∈ t) :
      isDigit 16 c ∨ c ∈ ['-', '+', '_', 'x', 'X'] :=
    (h.isDigit_or_mem hc).imp_right fun hc => List.mem_cons_of_mem _ (List.mem_cons_of_mem _ hc)
  cases h with
  | bare h => exact hunsigned h hc
  | plus h =>
    rcases List.mem_cons.1 hc with rfl | hc
    · exact .inr (by decide)
    · exact hunsigned h hc
  | minus h =>
    rcases List.mem_cons.1 hc with rfl | hc
    · exact .inr (by decide)
    · exact hunsigned h hc

theorem lt_of_isDigit {radix : Nat} (h : isDigit radix c) : c.toNat < 128 := by
  obtain ⟨d, hd⟩ := Option.isSome_iff_exists.1 h
  exact lt_of_digitValue? hd

/-- What holds of digits, signs and marks holds of the characters of a number. -/
theorem Signed.forall_mem {p : Char → Prop} [DecidablePred p] (h : Signed s v)
    (hdigit : ∀ n : Fin 128, isDigit 16 (Char.ofNat n) → p (Char.ofNat n))
    (hmark : ['-', '+', '_', 'x', 'X'].all (p ·)) : ∀ c ∈ s, p c := by
  intro c hc
  rcases h.isDigit_or_mem hc with hc | hc
  · exact forall_basic (p := fun c => isDigit 16 c → p c) hdigit (lt_of_isDigit hc) hc
  · exact of_decide_eq_true (List.all_eq_true.1 hmark c hc)

theorem core_surrounded (s : List Char) :
    Text.Surrounded isSpace (· = core s) (s.map basic) := by
  let rest := (s.map basic).dropWhile isSpace
  refine ⟨(s.map basic).takeWhile isSpace, core s, (rest.reverse.takeWhile isSpace).reverse, ?_,
    fun c hc => List.mem_takeWhile_imp hc,
    fun c hc => List.mem_takeWhile_imp (List.mem_reverse.1 hc), rfl⟩
  rw [core, List.append_assoc, ← List.reverse_append, List.takeWhile_append_dropWhile,
    List.reverse_reverse, List.takeWhile_append_dropWhile]

/-- The blanks around a text without blanks are left out. -/
theorem core_eq_of_surrounded (ht : t ≠ []) (hspace : ∀ c ∈ t, isSpace c = false)
    (h : Text.Surrounded isSpace (· = t) (s.map basic)) : core s = t := by
  have hdrop {u w : List Char} (hu : u ≠ []) (hspace : ∀ c ∈ u, isSpace c = false) :
      (u ++ w).dropWhile isSpace = u ++ w := by
    obtain ⟨c, u, rfl⟩ := List.exists_cons_of_ne_nil hu
    exact List.dropWhile_cons_of_neg (by rw [hspace c List.mem_cons_self]; decide)
  obtain ⟨before, text, after, hs, hbefore, hafter, rfl⟩ := h
  have hafter' : ∀ c ∈ after.reverse, isSpace c := fun c hc => hafter c (List.mem_reverse.1 hc)
  have hreverse := hdrop (u := text.reverse) (w := []) (by simpa using ht)
    fun c hc => hspace c (List.mem_reverse.1 hc)
  rw [List.append_nil] at hreverse
  rw [core, hs, List.append_assoc, List.dropWhile_append_of_pos hbefore, hdrop ht hspace,
    List.reverse_append, List.dropWhile_append_of_pos hafter', hreverse, List.reverse_reverse]

/-- What can be read in hexadecimal is a hexadecimal literal, and the other way round. -/
theorem read_hex_eq_ok_iff : read .hex s = .ok v ↔ IsHex s v := by
  have hread : read .hex s = .ok v ↔ Signed (core s) v := by
    rw [← signed_hex_eq_ok_iff, read]
    split
    · rename_i h
      rw [h, Except.ok.injEq, Except.ok.injEq]
    all_goals
      rename_i h
      rw [h]
      exact iff_of_false (by simp) (by simp)
  rw [hread]
  constructor
  · intro h
    obtain ⟨before, text, after, hs, hbefore, hafter, rfl⟩ := core_surrounded s
    exact ⟨before, core s, after, hs, hbefore, hafter, h⟩
  · rintro ⟨before, text, after, hs, hbefore, hafter, h⟩
    have hspace : ∀ c ∈ text, isSpace c = false :=
      h.forall_mem (p := fun c => isSpace c = false) (by decide) (by decide)
    rwa [core_eq_of_surrounded h.ne_nil hspace ⟨before, text, after, hs, hbefore, hafter, rfl⟩]

end Literals

/-! ## Blanks around a literal -/

/-- Whether the character is an information separator, U+001C to U+001F. -/
def isSeparator (c : Char) : Bool :=
  28 ≤ c.toNat && c.toNat ≤ 31

/-- All blanks but the information separators may stand around a literal. -/
theorem isSpace_basic (c : Char) : isSpace (basic c) = (Text.isBlank c && !isSeparator c) := by
  by_cases hlt : c.toNat < 127
  · rw [basic, if_pos hlt]
    exact forall_basic (p := fun c => isSpace c = (Text.isBlank c && !isSeparator c)) (by decide)
      (by omega)
  have hseparator : isSeparator c = false := by
    rw [isSeparator, Bool.and_eq_false_iff, decide_eq_false_iff_not, decide_eq_false_iff_not]
    omega
  rw [basic, if_neg hlt, hseparator, Bool.not_false, Bool.and_true]
  split
  · rename_i hblank
    rw [hblank]
    rfl
  · rename_i hblank
    rw [Bool.not_eq_true] at hblank
    rw [hblank]
    split
    · rename_i d hd
      have hall : ∀ d : Fin 10, isSpace (Char.ofNat (d + 48)) = false := by decide
      exact hall ⟨d, Text.decimalDigit?_lt hd⟩
    · rfl

/-- There is no information separator in a literal, nor around it. -/
theorem IsHex.isSeparator_eq_false {s : List Char} {v : Int} (h : IsHex s v) :
    ∀ c ∈ s, isSeparator c = false := by
  intro c hc
  by_contra hseparator
  rw [Bool.not_eq_false] at hseparator
  have hbasic : basic c = c := by
    rw [isSeparator, Bool.and_eq_true, decide_eq_true_eq, decide_eq_true_eq] at hseparator
    exact if_pos (by omega)
  have hspace : isSpace (basic c) = false := by rw [isSpace_basic, hseparator]; simp
  have hmem : basic c ∈ s.map basic := List.mem_map_of_mem hc
  obtain ⟨before, text, after, hs, hbefore, hafter, htext⟩ := h
  rw [hs, List.mem_append, List.mem_append] at hmem
  rcases hmem with (hmem | hmem) | hmem
  · rw [hbefore _ hmem] at hspace
    cases hspace
  · have hnone := htext.forall_mem (p := fun c => isSeparator c = false) (by decide) (by decide)
    rw [hbasic] at hmem
    rw [hnone c hmem] at hseparator
    cases hseparator
  · rw [hafter _ hmem] at hspace
    cases hspace

/-! ## Written numbers -/

/-- The number is written in hexadecimal, in small letters or capitals, with its mark or without
it. -/
inductive Writes (n : Nat) : List Char → Prop
  | bare {digits : List Char} : Shows digits n → Writes n digits
  | marked {x : Char} {digits : List Char} : x = 'x' ∨ x = 'X' → Shows digits n →
    Writes n ('0' :: x :: digits)

section Writes

variable {n : Nat} {s : List Char}

theorem Shows.grouped (h : Shows s n) : Grouped s n :=
  ⟨[s], List.intercalate_singleton.symm, by simpa using (shows_iff.1 h).1, by simpa using h⟩

theorem Writes.signed (h : Writes n s) : Signed s n := by
  cases h with
  | bare h => exact .bare (.bare h.grouped)
  | marked hx h => exact .bare (.marked hx h.grouped)

/-- A written number is a literal, with blanks around it that are no information separators. -/
theorem isHex_of_surrounded
    (h : Text.Surrounded (fun c => Text.isBlank c && !isSeparator c) (Writes n) s) :
    IsHex s n := by
  obtain ⟨before, text, after, rfl, hbefore, hafter, htext⟩ := h
  have hspaces {blanks : List Char} (h : ∀ c ∈ blanks, (Text.isBlank c && !isSeparator c) = true) :
      ∀ c ∈ blanks.map basic, isSpace c := by
    intro c hc
    obtain ⟨b, hb, rfl⟩ := List.mem_map.1 hc
    rw [isSpace_basic]
    exact h b hb
  have hself : text.map basic = text := by
    refine (List.map_congr_left fun c hc => ?_).trans (List.map_id text)
    have hlt := htext.signed.forall_mem (p := fun c => c.toNat < 127) (by decide) (by decide) c hc
    exact if_pos hlt
  refine ⟨before.map basic, text, after.map basic, ?_, hspaces hbefore, hspaces hafter,
    htext.signed⟩
  rw [List.map_append, List.map_append, hself]

end Writes

end ChipEight.Literal
