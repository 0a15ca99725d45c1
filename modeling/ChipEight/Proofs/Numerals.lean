/-
Numbers that are written can be read back.

Main statements:
* `forall_basic`, `forall_char`: a property of characters is checked on the first 128 of them;
* `Literal.horner_toDigits`: the digits of a number show the number;
* `Literal.magnitude_of_digits`: what consists of digits is read as the number that they show;
* `Literal.read_marked`: a number in hexadecimal, with its mark and zeros in front;
* `Literal.read_toDigits`: a number in decimal.
-/
import ChipEight.Numeral.Hex
import ChipEight.Numeral.Literal

namespace ChipEight

/-- What holds of the first 128 characters holds of a character among them. -/
theorem forall_basic {p : Char → Prop} (h : ∀ n : Fin 128, p (Char.ofNat n)) {c : Char}
    (hc : c.toNat < 128) : p c := by
  have hp := h ⟨c.toNat, hc⟩
  rwa [Char.ofNat_toNat] at hp

/-- What holds of the first 128 characters, and of those that are their own small letters and
capitals, holds of all characters. -/
theorem forall_char {p : Char → Prop} (hbasic : ∀ n : Fin 128, p (Char.ofNat n))
    (hother : ∀ c : Char, c.toLower = c → c.toUpper = c → p c) (c : Char) : p c := by
  by_cases hc : c.toNat < 128
  · exact forall_basic hbasic hc
  · refine hother c (dif_neg fun hupper => ?_) (dif_neg fun hlower => ?_)
    · have hle : c.toNat ≤ 90 := UInt32.le_iff_toNat_le.1 hupper.2
      omega
    · have hle : c.toNat ≤ 122 := UInt32.le_iff_toNat_le.1 hlower.2
      omega

namespace Literal

/-! ## Digits -/

theorem lt_of_hexValue? {c : Char} {d : Nat} (h : hexValue? c = some d) : c.toNat < 128 := by
  rw [hexValue?] at h
  split at h
  · rename_i hc
    have hle : c.toNat ≤ 57 := UInt32.le_iff_toNat_le.1 (Char.le_def.1 hc.2)
    omega
  · split at h
    · rename_i hc
      have hle : c.toNat ≤ 102 := UInt32.le_iff_toNat_le.1 (Char.le_def.1 hc.2)
      omega
    · split at h
      · rename_i hc
        have hle : c.toNat ≤ 70 := UInt32.le_iff_toNat_le.1 (Char.le_def.1 hc.2)
        omega
      · cases h

theorem lt_of_digitValue? {radix d : Nat} {c : Char} (h : digitValue? radix c = some d) :
    c.toNat < 128 :=
  lt_of_hexValue? (Option.filter_eq_some_iff.1 h).1

section Digits

variable {radix d n : Nat}

theorem hexValue?_digitChar (h : d < 16) : hexValue? d.digitChar = some d := by
  have hall : ∀ d : Fin 16, hexValue? d.val.digitChar = some d.val := by decide
  exact hall ⟨d, h⟩

theorem digitValue?_digitChar (hr : radix ≤ 16) (h : d < radix) :
    digitValue? radix d.digitChar = some d := by
  rw [digitValue?, hexValue?_digitChar (by omega), Option.filter_some, if_pos (decide_eq_true h)]

/-- The characters of a written number are the digits of its radix. -/
theorem exists_of_mem_toDigits (hr : 1 < radix) {c : Char} (h : c ∈ Nat.toDigits radix n) :
    ∃ d < radix, c = d.digitChar := by
  induction n using Nat.strongRecOn with
  | ind n ih =>
    rw [Nat.toDigits_eq_if hr] at h
    split at h
    · exact ⟨n, ‹_›, List.mem_singleton.1 h⟩
    · rcases List.mem_append.1 h with h | h
      · exact ih (n / radix) (Nat.div_lt_self (by omega) hr) h
      · exact ⟨n % radix, Nat.mod_lt _ (by omega), List.mem_singleton.1 h⟩

/-- The digits of a number show the number. -/
theorem horner_toDigits (hr : 1 < radix) (hr' : radix ≤ 16) (n : Nat) :
    horner radix 0 (Nat.toDigits radix n) = n := by
  induction n using Nat.strongRecOn with
  | ind n ih =>
    rw [Nat.toDigits_eq_if hr]
    split
    · rw [horner, digitValue?_digitChar hr' ‹_›, horner, Nat.zero_mul, Nat.zero_add,
        Option.getD_some]
    · rw [horner_append, ih (n / radix) (Nat.div_lt_self (by omega) hr), horner,
        digitValue?_digitChar hr' (Nat.mod_lt _ (by omega)), horner, Option.getD_some]
      exact Nat.div_add_mod' n radix

theorem horner_replicate_zero (k : Nat) (s : List Char) :
    horner radix 0 (List.replicate k '0' ++ s) = horner radix 0 s := by
  have hzero : (digitValue? radix '0').getD 0 = 0 := by
    by_cases h : 0 < radix
    · have hv : hexValue? '0' = some 0 := rfl
      rw [digitValue?, hv, Option.filter_some, if_pos (decide_eq_true h), Option.getD_some]
    · obtain rfl : radix = 0 := by omega
      rfl
  induction k with
  | zero => rfl
  | succ k ih =>
    rw [List.replicate_succ, List.cons_append, horner, hzero, Nat.zero_mul, Nat.add_zero, ih]

end Digits

/-! ## Texts of digits -/

/-- What consists of digits is read as the number that they show. -/
theorem magnitude_of_digits {radix : Nat} {s : List Char} (hs : s ≠ [])
    (h : ∀ c ∈ s, isDigit radix c) (hl : radix = 10 → s.length ≤ maxDigits) :
    magnitude radix s = .ok (horner radix 0 s) := by
  -- Without underscores there is one group of digits, and nothing to leave out.
  have hunderscore : '_' ∉ s := by
    intro hmem
    have hdigit := h '_' hmem
    have hnone : hexValue? '_' = none := rfl
    rw [isDigit, digitValue?, hnone] at hdigit
    cases hdigit
  have hrun : (s.takeWhile fun c => isDigit radix c || c == '_') = s := by
    rw [← List.append_nil s, List.takeWhile_append_of_pos]
    · simp
    · intro c hc
      rw [h c hc, Bool.true_or]
  have hgrouped : isGrouped radix s = true := by
    rw [isGrouped, List.splitOn_eq_singleton hunderscore]
    simpa [hs] using h
  have hungrouped : ungrouped s = s := by
    rw [ungrouped, List.filter_eq_self]
    intro c hc
    have hne : c ≠ '_' := by
      rintro rfl
      exact hunderscore hc
    simpa using hne
  have hlimit : ¬(radix = 10 ∧ maxDigits < s.length) := by
    rintro ⟨hten, hlt⟩
    have := hl hten
    omega
  rw [magnitude]
  simp only [hrun, hgrouped, hungrouped, Bool.not_true, Bool.false_eq_true, if_false,
    if_neg hlimit, Nat.lt_irrefl]

/-- A text of basic characters without blanks is left alone before it is read. -/
theorem core_eq_self {s : List Char} (h : ∀ c ∈ s, c.toNat < 127 ∧ isSpace c = false) :
    core s = s := by
  have hmap : s.map basic = s := by
    refine (List.map_congr_left fun c hc => ?_).trans (List.map_id s)
    exact if_pos (h c hc).1
  have hdrop (t : List Char) (ht : ∀ c ∈ t, isSpace c = false) : t.dropWhile isSpace = t := by
    cases t with
    | nil => rfl
    | cons c t => rw [List.dropWhile_cons_of_neg (by rw [ht c List.mem_cons_self]; decide)]
  rw [core, hmap, hdrop s fun c hc => (h c hc).2,
    hdrop s.reverse fun c hc => (h c (List.mem_reverse.1 hc)).2, List.reverse_reverse]

theorem digitChar_basic {d : Nat} (h : d < 16) :
    d.digitChar.toNat < 127 ∧ isSpace d.digitChar = false := by
  have hall : ∀ d : Fin 16, d.val.digitChar.toNat < 127 ∧ isSpace d.val.digitChar = false := by
    decide
  exact hall ⟨d, h⟩

/-! ## Numbers -/

/-- Hexadecimal digits behind the mark are read as the number that they show. -/
theorem read_mark {s : List Char} (hs : s ≠ []) (h : ∀ c ∈ s, ∃ d < 16, c = d.digitChar) :
    read .told ('0' :: 'x' :: s) = .ok (horner 16 0 s : Int) := by
  have hcore : core ('0' :: 'x' :: s) = '0' :: 'x' :: s := by
    refine core_eq_self fun c hc => ?_
    rcases List.mem_cons.1 hc with rfl | hc
    · decide
    rcases List.mem_cons.1 hc with rfl | hc
    · decide
    obtain ⟨d, hd, rfl⟩ := h c hc
    exact digitChar_basic hd
  have hmark : afterMark s = s := by
    rw [afterMark]
    rintro t rfl
    obtain ⟨d, hd, hc⟩ := h '_' List.mem_cons_self
    have hnone : ∀ d : Fin 16, '_' ≠ d.val.digitChar := by decide
    exact hnone ⟨d, hd⟩ hc
  have hmagnitude : magnitude 16 s = .ok (horner 16 0 s) := by
    refine magnitude_of_digits hs (fun c hc => ?_) (by omega)
    obtain ⟨d, hd, rfl⟩ := h c hc
    rw [isDigit, digitValue?_digitChar (by decide) hd, Option.isSome_some]
  have hunsigned : unsigned .told ('0' :: 'x' :: s) = .ok (horner 16 0 s) := by
    rw [unsigned, if_pos (.inl rfl), hmark, hmagnitude]
  have hsigned : signed .told ('0' :: 'x' :: s) = .ok (horner 16 0 s : Int) := by
    rw [signed, hunsigned]
    · rfl
    all_goals
      intro t ht
      cases ht
  rw [read, hcore, hsigned]

theorem marked_of_nonneg {v : Int} (h : 0 ≤ v) (width : Nat) :
    ∃ k, Hex.marked width v =
      '0' :: 'x' :: (List.replicate k '0' ++ Nat.toDigits 16 v.toNat) := by
  have habs : v.natAbs = v.toNat := by omega
  rw [Hex.marked, Hex.filled, if_neg (Int.not_lt.2 h), habs]
  exact ⟨_, rfl⟩

/-- Zeros and the digits of a number are digits. -/
theorem exists_of_mem_zeros_append {radix k n : Nat} {c : Char} (hr : 1 < radix)
    (h : c ∈ List.replicate k '0' ++ Nat.toDigits radix n) : ∃ d < radix, c = d.digitChar := by
  rcases List.mem_append.1 h with h | h
  · exact ⟨0, by omega, List.eq_of_mem_replicate h⟩
  · exact exists_of_mem_toDigits hr h

/-- A number in capitals consists of its sign and its digits. -/
theorem not_mem_capital {c : Char} (hsign : '-' ≠ c)
    (hdigit : ∀ d : Fin 16, d.val.digitChar.toUpper ≠ c) (width : Nat) (v : Int) :
    c ∉ Hex.capital width v := by
  rw [Hex.capital, List.mem_map]
  rintro ⟨b, hb, hupper⟩
  rw [Hex.bare, Hex.filled, List.append_nil, List.append_assoc, List.mem_append] at hb
  rcases hb with hb | hb
  · split at hb
    · obtain rfl := List.mem_singleton.1 hb
      exact hsign hupper
    · cases hb
  · obtain ⟨d, hd, rfl⟩ := exists_of_mem_zeros_append (by decide) hb
    exact hdigit ⟨d, hd⟩ hupper

/-- A number that is not negative is read back from hexadecimal. -/
theorem read_marked {v : Int} (h : 0 ≤ v) (width : Nat) :
    read .told (Hex.marked width v) = .ok v := by
  obtain ⟨k, hk⟩ := marked_of_nonneg h width
  rw [hk, read_mark (by simp) fun c hc => exists_of_mem_zeros_append (by decide) hc,
    horner_replicate_zero, horner_toDigits (by decide) (by decide), Int.toNat_of_nonneg h]

/-- A number that is not zero does not begin with a zero. -/
theorem exists_toDigits_eq {n : Nat} (h : 0 < n) :
    ∃ d t, 0 < d ∧ d < 10 ∧ Nat.toDigits 10 n = d.digitChar :: t := by
  induction n using Nat.strongRecOn with
  | ind n ih =>
    rw [Nat.toDigits_eq_if (by decide)]
    split
    · exact ⟨n, [], h, ‹_›, rfl⟩
    · obtain ⟨d, t, hd, hd', ht⟩ := ih (n / 10) (by omega) (by omega)
      exact ⟨d, t ++ [(n % 10).digitChar], hd, hd', by rw [ht]; rfl⟩

/-- A number is read back from decimal, if it does not have too many digits. -/
theorem read_toDigits {n : Nat} (h : (Nat.toDigits 10 n).length ≤ maxDigits) :
    read .told (Nat.toDigits 10 n) = .ok (n : Int) := by
  -- Zero alone begins with a zero, which would ask for a mark before other digits.
  rcases Nat.eq_zero_or_pos n with rfl | hn
  · rfl
  have hdigits : ∀ c ∈ Nat.toDigits 10 n, ∃ d < 10, c = d.digitChar := fun c hc =>
    exists_of_mem_toDigits (by decide) hc
  have hcore : core (Nat.toDigits 10 n) = Nat.toDigits 10 n := by
    refine core_eq_self fun c hc => ?_
    obtain ⟨d, hd, rfl⟩ := hdigits c hc
    exact digitChar_basic (by omega)
  have hmagnitude : magnitude 10 (Nat.toDigits 10 n) = .ok n := by
    rw [magnitude_of_digits Nat.toDigits_ne_nil (fun c hc => ?_) fun _ => h,
      horner_toDigits (by decide) (by decide)]
    obtain ⟨d, hd, rfl⟩ := hdigits c hc
    rw [isDigit, digitValue?_digitChar (by decide) hd, Option.isSome_some]
  obtain ⟨d, t, hd, hd', ht⟩ := exists_toDigits_eq hn
  have hfirst : ∀ d : Fin 10, 0 < d.val →
      d.val.digitChar ≠ '0' ∧ d.val.digitChar ≠ '-' ∧ d.val.digitChar ≠ '+' := by decide
  obtain ⟨hzero, hminus, hplus⟩ := hfirst ⟨d, hd'⟩ hd
  have hunsigned : unsigned .told (d.digitChar :: t) = .ok n := by
    rw [unsigned, ← ht, hmagnitude]
    intro c u hu
    exact hzero (List.cons.inj hu).1
  have hsigned : signed .told (d.digitChar :: t) = .ok (n : Int) := by
    rw [signed, hunsigned]
    · rfl
    · intro u hu
      exact hminus (List.cons.inj hu).1
    · intro u hu
      exact hplus (List.cons.inj hu).1
  rw [read, hcore, ht, hsigned]

end Literal

end ChipEight
