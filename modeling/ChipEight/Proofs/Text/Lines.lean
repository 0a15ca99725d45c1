/-
Lines: texts that are put together from lines, and the blanks at the ends of a line.

Main definitions:
* `unlines`: the text that consists of lines, `printed`: the text in which every line is ended;
* `Blanks`: a run of blanks that stays on its line, `Surrounded`: a text with blanks around it.

Main statements:
* `splitOn_unlines`, `splitOn_printed`: a text is split into the lines that it was put together
  from;
* `filter_intercalate`: what texts hold is left if what was put between them is left out;
* `trim_blanks_append`, `trim_append_blanks`: blanks at the ends do not matter.
-/
import ChipEight.Proofs.Text.Cutting

namespace ChipEight.Text

/-! ## Lines -/

/-- The text that consists of lines. -/
def unlines (lines : List (List Char)) : List Char :=
  ['\n'].intercalate lines

/-- What is put between texts and what the texts hold is all that there is in them together. -/
theorem not_mem_intercalate {sep : List Char} {texts : List (List Char)} {c : Char} (hsep : c ∉ sep)
    (h : ∀ text ∈ texts, c ∉ text) : c ∉ sep.intercalate texts := by
  induction texts with
  | nil => exact List.not_mem_nil
  | cons text rest ih =>
    have htext := h text List.mem_cons_self
    have hrest := ih fun other hother => h other (List.mem_cons_of_mem _ hother)
    rcases List.eq_nil_or_concat rest with rfl | ⟨_, _, hne⟩
    · rwa [List.intercalate_singleton]
    · rw [List.intercalate_cons_of_ne_nil (by simp [hne])]
      simp [htext, hsep, hrest]

/-- Without the character that is put between them, texts that do not hold it are one behind the
other. -/
theorem filter_intercalate {sep : Char} {texts : List (List Char)}
    (h : ∀ text ∈ texts, sep ∉ text) :
    ([sep].intercalate texts).filter (· ≠ sep) = texts.flatten := by
  induction texts with
  | nil => rfl
  | cons text rest ih =>
    have htext : text.filter (· ≠ sep) = text := by
      refine List.filter_eq_self.2 fun c hc => decide_eq_true ?_
      rintro rfl
      exact h text List.mem_cons_self hc
    have hrest := ih fun other hother => h other (List.mem_cons_of_mem _ hother)
    rcases List.eq_nil_or_concat rest with rfl | ⟨_, _, hne⟩
    · rw [List.intercalate_singleton, htext, List.flatten_singleton]
    · rw [List.intercalate_cons_of_ne_nil (by simp [hne]), List.filter_append, List.filter_append,
        htext, hrest, List.flatten_cons]
      simp

/-- No line of a text holds a line feed. -/
theorem newline_not_mem_of_mem_splitOn {s line : List Char} (h : line ∈ s.splitOn '\n') :
    '\n' ∉ line := by
  induction s generalizing line with
  | nil =>
    rw [List.splitOn_nil, List.mem_singleton] at h
    rw [h]
    exact List.not_mem_nil
  | cons c s ih =>
    rw [List.splitOn_cons_eq_if_modifyHead] at h
    split at h
    · rcases List.mem_cons.1 h with rfl | h
      · exact List.not_mem_nil
      · exact ih h
    · rename_i hc
      obtain ⟨first, rest, hsplit⟩ := List.exists_cons_of_ne_nil (List.splitOn_ne_nil '\n' s)
      rw [hsplit] at h ih
      rcases List.mem_cons.1 h with rfl | h
      · rw [List.mem_cons, not_or]
        exact ⟨fun heq => hc (beq_iff_eq.2 heq.symm), ih List.mem_cons_self⟩
      · exact ih (List.mem_cons_of_mem _ h)

theorem splitOn_unlines {lines : List (List Char)} (hne : lines ≠ [])
    (h : ∀ line ∈ lines, '\n' ∉ line) : (unlines lines).splitOn '\n' = lines :=
  List.splitOn_intercalate '\n' h hne

/-- The text in which every line is ended by a line feed. -/
def printed (lines : List (List Char)) : List Char :=
  lines.flatMap (· ++ ['\n'])

/-- Lines that are printed are lines of the text, and nothing follows them. -/
theorem splitOn_printed {lines : List (List Char)} (h : ∀ line ∈ lines, '\n' ∉ line) :
    (printed lines).splitOn '\n' = lines ++ [[]] := by
  induction lines with
  | nil => exact List.splitOn_nil '\n'
  | cons line lines ih =>
    have hprinted : printed (line :: lines) = line ++ '\n' :: printed lines := by
      rw [printed, List.flatMap_cons, List.append_assoc, List.singleton_append, printed]
    rw [hprinted, List.splitOn_append_cons_self_of_not_mem (h line List.mem_cons_self),
      ih fun other hother => h other (List.mem_cons_of_mem _ hother), List.cons_append]

/-! ## Blanks at the ends -/

/-- A run of blanks that stays on its line. -/
def Blanks (s : List Char) : Prop :=
  ∀ c ∈ s, isBlank c ∧ c ≠ '\n'

instance (s : List Char) : Decidable (Blanks s) :=
  inferInstanceAs (Decidable (∀ c ∈ s, _))

/-- The text is one of some kind with blanks around it. -/
def Surrounded (blank : Char → Bool) (kind : List Char → Prop) (s : List Char) : Prop :=
  ∃ before text after, s = before ++ text ++ after ∧ (∀ c ∈ before, blank c) ∧
    (∀ c ∈ after, blank c) ∧ kind text

variable {s blanks : List Char}

/-- What counts as a blank matters for the characters of the text only. -/
theorem Surrounded.imp {blank blank' : Char → Bool} {kind : List Char → Prop}
    (h : Surrounded blank kind s) (hblank : ∀ c ∈ s, blank c → blank' c) :
    Surrounded blank' kind s := by
  obtain ⟨before, text, after, rfl, hbefore, hafter, htext⟩ := h
  refine ⟨before, text, after, rfl, fun c hc => ?_, fun c hc => ?_, htext⟩
  · exact hblank c (by simp [hc]) (hbefore c hc)
  · exact hblank c (by simp [hc]) (hafter c hc)

theorem Blanks.newline_not_mem (h : Blanks blanks) : '\n' ∉ blanks :=
  fun hc => (h '\n' hc).2 rfl

theorem Blanks.all_isBlank (h : Blanks blanks) : ∀ c ∈ blanks, isBlank c :=
  fun c hc => (h c hc).1

theorem trim_sublist (s : List Char) : (trim s).Sublist s := by
  have hend := List.reverse_sublist.2 (List.dropWhile_sublist (p := isBlank) (l := (trimStart s).reverse))
  rw [List.reverse_reverse] at hend
  exact hend.trans (List.dropWhile_sublist _)

theorem trimStart_of_blank (h : ∀ c ∈ blanks, isBlank c) : trimStart blanks = [] :=
  List.dropWhile_eq_nil_iff.2 h

theorem trim_of_blank (h : ∀ c ∈ blanks, isBlank c) : trim blanks = [] := by
  rw [trim, trimStart_of_blank h, trimEnd_nil]

theorem trimStart_blanks_append (h : ∀ c ∈ blanks, isBlank c) (s : List Char) :
    trimStart (blanks ++ s) = trimStart s :=
  List.dropWhile_append_of_pos h

theorem trimEnd_append_blanks (h : ∀ c ∈ blanks, isBlank c) (s : List Char) :
    trimEnd (s ++ blanks) = trimEnd s := by
  have hreverse : ∀ c ∈ blanks.reverse, isBlank c := fun c hc => h c (List.mem_reverse.1 hc)
  rw [trimEnd, List.reverse_append, List.dropWhile_append_of_pos hreverse, trimEnd]

/-- Blanks before a text do not matter. -/
theorem trim_blanks_append (h : ∀ c ∈ blanks, isBlank c) (s : List Char) :
    trim (blanks ++ s) = trim s := by
  rw [trim, trim, trimStart_blanks_append h]

/-- Blanks behind a text do not matter. -/
theorem trim_append_blanks (h : ∀ c ∈ blanks, isBlank c) (s : List Char) :
    trim (s ++ blanks) = trim s := by
  rw [trim, trim, trimStart, trimStart, List.dropWhile_append]
  split
  · rename_i hs
    rw [List.isEmpty_iff.1 hs, List.dropWhile_eq_nil_iff.2 h]
  · exact trimEnd_append_blanks h _

/-- A text is what is left of it and the blanks at its end. -/
theorem exists_trimEnd_append (s : List Char) :
    ∃ blanks, (∀ c ∈ blanks, isBlank c) ∧ s = trimEnd s ++ blanks := by
  refine ⟨(s.reverse.takeWhile isBlank).reverse, fun c hc => ?_, ?_⟩
  · exact List.mem_takeWhile_imp (List.mem_reverse.1 hc)
  · rw [trimEnd, ← List.reverse_append, List.takeWhile_append_dropWhile, List.reverse_reverse]

/-- Something is left of a text if not all of it is blank. -/
theorem trim_ne_nil_iff : trim s ≠ [] ↔ ∃ c ∈ s, isBlank c = false := by
  constructor
  · intro h
    by_contra hnone
    refine h (trim_of_blank fun c hc => ?_)
    by_contra hc'
    exact hnone ⟨c, hc, Bool.not_eq_true _ ▸ hc'⟩
  · rintro ⟨c, hc, hblank⟩ h
    obtain ⟨blanks, hblanks, hstart⟩ := exists_trimEnd_append (trimStart s)
    have hend : trimEnd (trimStart s) = [] := h
    rw [hend, List.nil_append] at hstart
    -- What is left at the start would begin with a character that is not blank.
    cases blanks with
    | nil => rw [List.dropWhile_eq_nil_iff.1 hstart c hc] at hblank; cases hblank
    | cons d blanks =>
      have hhead := List.head?_dropWhile_not isBlank s
      have hdrop : s.dropWhile isBlank = d :: blanks := hstart
      rw [hdrop] at hhead
      exact absurd (hblanks d List.mem_cons_self) (by rw [hhead]; decide)

theorem trim_trimEnd (s : List Char) : trim (trimEnd s) = trim s := by
  obtain ⟨blanks, hblanks, hs⟩ := exists_trimEnd_append s
  rw [← trim_append_blanks hblanks, ← hs]

/-- The blanks at the end of a text are those behind its last character that is not blank. -/
theorem trimEnd_append_cons {c : Char} (h : isBlank c = false) (s t : List Char) :
    trimEnd (s ++ c :: t) = s ++ c :: trimEnd t := by
  rw [trimEnd, trimEnd, List.reverse_append, List.reverse_cons, List.append_assoc,
    List.singleton_append, List.dropWhile_append]
  split
  · rename_i ht
    rw [List.isEmpty_iff.1 ht, List.dropWhile_cons_of_neg (by rw [h]; decide)]
    simp
  · simp

end ChipEight.Text
