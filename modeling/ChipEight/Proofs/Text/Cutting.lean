/-
Cutting texts that were put together from plain words.

Main definition: `phrase`, a word and the items after it.

Main statements:
* `items_joined`: plain items, joined by commas and blanks, come back;
* `trim_phrase`: there is nothing to trim in a phrase;
* `cut_phrase`: a phrase is cut into its word and its items.
-/
import ChipEight.Text.Trim
import Mathlib.Data.List.TakeWhile

namespace ChipEight.Text

/-- The character is not blank, and it is none of the marks that separate parts of a line. -/
def Plain (c : Char) : Prop :=
  isBlank c = false ∧ c ≠ ',' ∧ c ≠ ';' ∧ c ≠ ':'

instance (c : Char) : Decidable (Plain c) :=
  inferInstanceAs (Decidable (_ ∧ _))

/-- A word of plain characters. -/
structure PlainWord (s : List Char) : Prop where
  ne_nil : s ≠ []
  plain : ∀ c ∈ s, Plain c

theorem plainWord_iff {s : List Char} : PlainWord s ↔ s ≠ [] ∧ s.all (Plain ·) := by
  rw [List.all_eq_true]
  constructor
  · intro h
    exact ⟨h.ne_nil, fun c hc => decide_eq_true (h.plain c hc)⟩
  · rintro ⟨hne, hplain⟩
    exact ⟨hne, fun c hc => of_decide_eq_true (hplain c hc)⟩

instance (s : List Char) : Decidable (PlainWord s) :=
  decidable_of_iff _ plainWord_iff.symm

theorem Plain.isBlank {c : Char} (h : Plain c) : isBlank c = false :=
  h.1

/-! ## Trimming -/

theorem trimStart_cons {c : Char} (h : isBlank c = false) (s : List Char) :
    trimStart (c :: s) = c :: s :=
  List.dropWhile_cons_of_neg (by rw [h]; decide)

theorem trimEnd_append {c : Char} (h : isBlank c = false) (s : List Char) :
    trimEnd (s ++ [c]) = s ++ [c] := by
  rw [trimEnd, List.reverse_append, List.reverse_singleton, List.singleton_append,
    List.dropWhile_cons_of_neg (by rw [h]; decide), List.reverse_cons, List.reverse_reverse]

/-- A text whose ends are not blank is left alone by trimming. -/
theorem trim_eq_self {s : List Char} (hs : ∀ c t, s = c :: t → isBlank c = false)
    (he : ∀ c t, s = t ++ [c] → isBlank c = false) : trim s = s := by
  cases s with
  | nil => rfl
  | cons c s =>
    rw [trim, trimStart_cons (hs c s rfl)]
    rcases List.eq_nil_or_concat (c :: s) with hnil | ⟨t, d, hd⟩
    · cases hnil
    · rw [List.concat_eq_append] at hd
      rw [hd, trimEnd_append (he d t hd)]

theorem trim_of_plainWord {s : List Char} (h : ∀ c ∈ s, Plain c) : trim s = s := by
  refine trim_eq_self (fun c t hs => ?_) (fun c t hs => ?_)
  · exact (h c (by simp [hs])).isBlank
  · exact (h c (by simp [hs])).isBlank

theorem trim_blank_cons {c : Char} (h : isBlank c = true) (s : List Char) :
    trim (c :: s) = trim s := by
  rw [trim, trim, trimStart, List.dropWhile_cons_of_pos h, trimStart]

/-! ## Words and items -/

theorem trimStart_of_plainWord {a : List Char} (ha : PlainWord a) (s : List Char) :
    trimStart (a ++ s) = a ++ s := by
  obtain ⟨c, t, rfl⟩ := List.exists_cons_of_ne_nil ha.ne_nil
  exact trimStart_cons (ha.plain c List.mem_cons_self).isBlank _

theorem PlainWord.not_isBlank {a : List Char} (ha : PlainWord a) :
    ∀ c ∈ a, (!isBlank c) = true :=
  fun c hc => by rw [(ha.plain c hc).isBlank]; rfl

/-- The first word ends at the first blank, and the blanks after it are left out. -/
theorem firstWord_append {a b : List Char} (ha : PlainWord a)
    (hb : ∀ c t, b = c :: t → isBlank c = false) : firstWord (a ++ ' ' :: b) = (a, b) := by
  have hblank : isBlank ' ' = true := by decide
  have hb' : trimStart (' ' :: b) = b := by
    rw [trimStart, List.dropWhile_cons_of_pos hblank]
    cases b with
    | nil => rfl
    | cons c t => exact trimStart_cons (hb c t rfl) t
  rw [firstWord, trimStart_of_plainWord ha, List.takeWhile_append_of_pos ha.not_isBlank,
    List.dropWhile_append_of_pos ha.not_isBlank, List.takeWhile_cons, List.dropWhile_cons, hblank]
  simp only [Bool.not_true, Bool.false_eq_true, if_false, List.append_nil, hb']

theorem firstWord_of_plainWord {a : List Char} (ha : PlainWord a) : firstWord a = (a, []) := by
  have hstart := trimStart_of_plainWord ha []
  rw [List.append_nil] at hstart
  rw [firstWord, hstart, List.takeWhile_eq_self_iff.2 ha.not_isBlank,
    List.dropWhile_eq_nil_iff.2 ha.not_isBlank, trimStart_nil]

theorem PlainWord.comma_not_mem {s : List Char} (h : PlainWord s) : ',' ∉ s :=
  fun hc => (h.plain ',' hc).2.1 rfl

theorem items_of_plainWord {s : List Char} (h : PlainWord s) : items s = [s] := by
  rw [items, List.splitOn_eq_singleton h.comma_not_mem]
  simp [trim_of_plainWord h.plain, h.ne_nil]

/-- A blank before the first item does not matter. -/
theorem items_blank_cons (s : List Char) : items (' ' :: s) = items s := by
  have hne : (' ' == ',') = false := rfl
  rw [items, items, List.splitOn_cons_eq_if_modifyHead, hne, if_neg Bool.false_ne_true]
  cases s.splitOn ',' with
  | nil => rfl
  | cons a rest =>
    rw [List.modifyHead_cons, List.map_cons, List.map_cons, trim_blank_cons (by decide)]

theorem items_append_comma {a : List Char} (h : PlainWord a) (s : List Char) :
    items (a ++ ',' :: s) = a :: items s := by
  rw [items, List.splitOn_append_cons_self_of_not_mem h.comma_not_mem, List.map_cons,
    trim_of_plainWord h.plain, List.filter_cons_of_pos (by simpa using h.ne_nil), items]

/-- Items with commas and blanks between them. -/
def joined (words : List (List Char)) : List Char :=
  [',', ' '].intercalate words

theorem joined_cons_cons (w w' : List Char) (words : List (List Char)) :
    joined (w :: w' :: words) = w ++ ',' :: ' ' :: joined (w' :: words) := by
  rw [joined, List.intercalate_cons_cons, List.append_assoc, List.cons_append,
    List.singleton_append, joined]

/-- Plain items, joined by commas and blanks, come back. -/
theorem items_joined {words : List (List Char)} (h : ∀ w ∈ words, PlainWord w) :
    items (joined words) = words := by
  induction words with
  | nil => rfl
  | cons w words ih =>
    have hw := h w List.mem_cons_self
    cases words with
    | nil => rw [joined, List.intercalate_singleton, items_of_plainWord hw]
    | cons w' words =>
      rw [joined_cons_cons, items_append_comma hw, items_blank_cons,
        ih fun v hv => h v (List.mem_cons_of_mem _ hv)]

/-! ## Phrases -/

/-- A word and the items after it. -/
def phrase (head : List Char) (words : List (List Char)) : List Char :=
  match words with
  | [] => head
  | _ => head ++ ' ' :: joined words

theorem phrase_cons (head w : List Char) (words : List (List Char)) :
    phrase head (w :: words) = head ++ ' ' :: joined (w :: words) :=
  rfl

section Phrase

variable {head : List Char} {words : List (List Char)} (hh : PlainWord head)
  (hw : ∀ w ∈ words, PlainWord w)

include hw in
/-- The last character of joined items is plain. -/
theorem exists_joined_eq (hne : words ≠ []) : ∃ s c, joined words = s ++ [c] ∧ Plain c := by
  induction words with
  | nil => exact absurd rfl hne
  | cons w words ih =>
    cases words with
    | nil =>
      have hword := hw w List.mem_cons_self
      refine ⟨w.dropLast, w.getLast hword.ne_nil, ?_, hword.plain _ (List.getLast_mem _)⟩
      rw [joined, List.intercalate_singleton, List.dropLast_concat_getLast]
    | cons w' words =>
      obtain ⟨s, c, hs, hc⟩ := ih (fun v hv => hw v (List.mem_cons_of_mem _ hv)) (by simp)
      refine ⟨w ++ ',' :: ' ' :: s, c, ?_, hc⟩
      rw [joined_cons_cons, hs, List.append_assoc]
      rfl

include hw in
theorem eq_or_plain_of_mem_joined {c : Char} (hc : c ∈ joined words) :
    c = ' ' ∨ c = ',' ∨ Plain c := by
  induction words with
  | nil => cases hc
  | cons w words ih =>
    have hword := hw w List.mem_cons_self
    cases words with
    | nil =>
      rw [joined, List.intercalate_singleton] at hc
      exact .inr (.inr (hword.plain c hc))
    | cons w' words =>
      rw [joined_cons_cons, List.mem_append, List.mem_cons, List.mem_cons] at hc
      rcases hc with hc | rfl | rfl | hc
      · exact .inr (.inr (hword.plain c hc))
      · exact .inr (.inl rfl)
      · exact .inl rfl
      · exact ih (fun v hv => hw v (List.mem_cons_of_mem _ hv)) hc

include hh hw

theorem eq_or_plain_of_mem_phrase {c : Char} (hc : c ∈ phrase head words) :
    c = ' ' ∨ c = ',' ∨ Plain c := by
  cases words with
  | nil => exact .inr (.inr (hh.plain c hc))
  | cons w words =>
    rw [phrase_cons, List.mem_append, List.mem_cons] at hc
    rcases hc with hc | rfl | hc
    · exact .inr (.inr (hh.plain c hc))
    · exact .inl rfl
    · exact eq_or_plain_of_mem_joined hw hc

/-- A phrase begins and ends with plain characters, so there is nothing to trim. -/
theorem trim_phrase : trim (phrase head words) = phrase head words := by
  cases words with
  | nil => exact trim_of_plainWord hh.plain
  | cons w words =>
    obtain ⟨c, t, rfl⟩ := List.exists_cons_of_ne_nil hh.ne_nil
    obtain ⟨s, d, hs, hd⟩ := exists_joined_eq hw (by simp)
    refine trim_eq_self (fun e u he => ?_) (fun e u he => ?_)
    · rw [phrase_cons, List.cons_append] at he
      obtain ⟨rfl, -⟩ := List.cons.inj he
      exact (hh.plain c List.mem_cons_self).isBlank
    · rw [phrase_cons, hs, ← List.cons_append, ← List.append_assoc] at he
      obtain ⟨-, hde⟩ := List.append_inj' he rfl
      obtain rfl : d = e := List.singleton_inj.1 hde
      exact hd.isBlank

/-- The first word of a phrase is its head, and the items are what follows. -/
theorem cut_phrase :
    (firstWord (phrase head words)).1 = head ∧ items (firstWord (phrase head words)).2 = words := by
  cases words with
  | nil =>
    rw [phrase, firstWord_of_plainWord hh]
    exact ⟨rfl, rfl⟩
  | cons w words =>
    -- The blanks that follow the head end with the first item.
    have hfirst : ∀ c t, joined (w :: words) = c :: t → isBlank c = false := by
      intro c t hc
      have hword := hw w List.mem_cons_self
      obtain ⟨d, u, rfl⟩ := List.exists_cons_of_ne_nil hword.ne_nil
      have hd : d = c := by
        cases words with
        | nil =>
          rw [joined, List.intercalate_singleton] at hc
          exact (List.cons.inj hc).1
        | cons w' words =>
          rw [joined_cons_cons] at hc
          exact (List.cons.inj hc).1
      rw [← hd]
      exact (hword.plain d List.mem_cons_self).isBlank
    rw [phrase_cons, firstWord_append hh hfirst]
    exact ⟨rfl, items_joined hw⟩

end Phrase

end ChipEight.Text
