/-
Names of labels that are read as operands of their own.

A label may be called like a register or like a special operand, in small letters or capitals.  An
operand of an instruction that is such a name stands for the register or the special operand, and
every other name of a label stands for its value.

Main definition: `isReserved`, whether a name is that of a register or of a special operand.

Main statements:
* `plain_of_isLabelChar`: the characters of labels are plain;
* `Operand.isValue_of_isReserved`: a reserved name is a register or a special operand;
* `Operand.ofText_of_isLabelName`: any other name of a label is a value.
-/
import ChipEight.Proofs.Assembly.Labels
import ChipEight.Proofs.Numerals
import ChipEight.Proofs.Text.Cutting
import Mathlib.Algebra.Group.Nat.Even

namespace ChipEight

/-! ## The characters of labels -/

namespace CharClass

/-- The code points of the runs of an ascending list of bounds, if every run has an end. -/
def codePoints : List Nat → List Nat
  | a :: b :: bounds => List.range' a (b - a) ++ codePoints bounds
  | _ => []

theorem mem_codePoints_of_inRuns {bounds : List Nat} {n : Nat} (heven : Even bounds.length)
    (h : inRuns bounds n) : n ∈ codePoints bounds := by
  fun_induction codePoints bounds with
  | case1 a b bounds ih =>
    rw [inRuns] at h
    split at h
    · cases h
    · rw [inRuns] at h
      split at h
      · exact List.mem_append_left _ (List.mem_range'_1.2 (by omega))
      · rw [Bool.not_not] at h
        refine List.mem_append_right _ (ih ?_ h)
        simpa [Nat.even_add_one] using heven
  | case2 bounds hshort =>
    rcases bounds with _ | ⟨a, _ | ⟨b, bounds⟩⟩
    · cases h
    · exact absurd heven Nat.not_even_one
    · exact absurd rfl (hshort a b bounds)

end CharClass

namespace Text

theorem isWordChar_of_isBlank {c : Char} (h : isBlank c) : isWordChar c = false := by
  have hall : ∀ n ∈ CharClass.codePoints blank.bounds,
      CharClass.inRuns wordChar.bounds n = false := by decide +kernel
  exact hall _ (CharClass.mem_codePoints_of_inRuns (by decide) h)

end Text

theorem Keyword.text_of_ofText? {s : List Char} {k : Keyword} (h : ofText? s = some k) :
    k.text = s :=
  beq_iff_eq.1 (List.find?_some (p := fun k : Keyword => k.text == s) h)

namespace Assembly

theorem plain_of_isLabelChar {c : Char} (h : isLabelChar c) : Text.Plain c := by
  have hne (d : Char) (hd : isLabelChar d = false) : c ≠ d := by
    rintro rfl
    rw [h] at hd
    cases hd
  refine ⟨?_, hne ',' (by decide), hne ';' (by decide), hne ':' (by decide)⟩
  by_contra hblank
  rw [Bool.not_eq_false] at hblank
  rw [isLabelChar, Text.isWordChar_of_isBlank hblank, Bool.false_or, beq_iff_eq] at h
  rw [h] at hblank
  revert hblank
  decide

theorem lt_of_isLabelStart {c : Char} (h : isLabelStart c) : c.toNat < 128 := by
  rcases Literal.isLabelStart_cases h with rfl | hc | hc
  · decide
  all_goals omega

theorem isLabelChar_of_isLabelStart {c : Char} (h : isLabelStart c) : isLabelChar c :=
  forall_basic (p := fun c => isLabelStart c → isLabelChar c) (by decide) (lt_of_isLabelStart h) h

theorem plainWord_of_isLabelName {name : List Char} (h : isLabelName name) :
    Text.PlainWord name := by
  obtain ⟨c, s, rfl, hc⟩ := exists_cons_of_isLabelName h
  have hs : ∀ d ∈ s, isLabelChar d := List.all_eq_true.1 (Bool.and_eq_true_iff.1 h).2
  refine ⟨List.cons_ne_nil c s, List.forall_mem_cons.2 ⟨?_, fun d hd => ?_⟩⟩
  · exact plain_of_isLabelChar (isLabelChar_of_isLabelStart hc)
  · exact plain_of_isLabelChar (hs d hd)

/-! ## Reserved names -/

/-- The names of the registers and of the special operands, in small letters. -/
def reservedNames : List (List Char) :=
  (List.range 16).map (fun d => ['v', d.digitChar]) ++
    Keyword.all.map fun k => k.text.map Char.toLower

/-- Whether a name is, in small letters or capitals, that of a register or of a special operand. -/
def isReserved (name : List Char) : Bool :=
  reservedNames.contains (name.map Char.toLower)

/-- The ways to write a name that is given in small letters. -/
def spellings : List Char → List (List Char)
  | [] => [[]]
  | c :: s => (spellings s).flatMap fun t => [c :: t, c.toUpper :: t]

theorem eq_or_eq_toUpper (c : Char) : c = c.toLower ∨ c = c.toLower.toUpper :=
  forall_char (p := fun c => c = c.toLower ∨ c = c.toLower.toUpper) (by decide)
    (fun _ hlower _ => .inl hlower.symm) c

theorem toLower_toUpper (c : Char) : c.toUpper.toLower = c.toLower :=
  forall_char (p := fun c => c.toUpper.toLower = c.toLower) (by decide)
    (fun _ _ hupper => by rw [hupper]) c

theorem mem_spellings (name : List Char) : name ∈ spellings (name.map Char.toLower) := by
  induction name with
  | nil => exact List.mem_singleton.2 rfl
  | cons c s ih =>
    rw [List.map_cons, spellings, List.mem_flatMap]
    refine ⟨s, ih, ?_⟩
    rcases eq_or_eq_toUpper c with h | h
    · rw [← h]
      exact List.mem_cons_self
    · rw [← h]
      exact List.mem_cons_of_mem _ List.mem_cons_self

/-- Whether the operand is a value. -/
def Operand.isValue : Operand → Bool
  | .value _ => true
  | _ => false

/-- A reserved name is a register or a special operand, however it is written. -/
theorem Operand.isValue_of_isReserved {name : List Char} (h : isReserved name) :
    (ofText name).isValue = false := by
  have hall : ∀ r ∈ reservedNames, ∀ s ∈ spellings r, (ofText s).isValue = false := by
    decide +kernel
  exact hall _ (List.contains_iff_mem.1 h) _ (mem_spellings name)

theorem isReserved_of_registerOfText? {name : List Char} {x : Nat}
    (h : Operand.registerOfText? name = some x) : isReserved name := by
  rw [Operand.registerOfText?.eq_def] at h
  split at h
  · rename_i v d
    split at h
    · rename_i hv
      have hdigit := forall_basic (p := fun d => (Literal.digitValue? 16 d).isSome →
        ['v', d.toLower] ∈ reservedNames) (by decide +kernel) (Literal.lt_of_digitValue? h)
        (by rw [h]; rfl)
      rcases hv with rfl | rfl
      · exact List.contains_iff_mem.2 hdigit
      · exact List.contains_iff_mem.2 hdigit
    · cases h
  · cases h

theorem isReserved_of_toUpper {name : List Char} {k : Keyword}
    (h : name.map Char.toUpper = k.text) : isReserved name := by
  have hlower : name.map Char.toLower = k.text.map Char.toLower := by
    rw [← h, List.map_map]
    exact List.map_congr_left fun c _ => (toLower_toUpper c).symm
  have hmem : k.text.map Char.toLower ∈ reservedNames := by
    cases k <;> decide
  rw [isReserved, hlower]
  exact List.contains_iff_mem.2 hmem

end Assembly

/-! ## Capital forms -/

namespace Text

theorem capitals_cases (c : Char) :
    capitals c = [c.toUpper] ∨ (c, capitals c) ∈ foreignCapitals := by
  rw [capitals]
  cases h : foreignCapitals.lookup c with
  | none => exact .inl rfl
  | some l =>
    obtain ⟨l₁, l₂, hsplit, -⟩ := List.lookup_eq_some_iff.1 h
    refine .inr ?_
    rw [hsplit]
    exact List.mem_append_right _ List.mem_cons_self

theorem capitals_ne_nil (c : Char) : capitals c ≠ [] := by
  have hforeign : ∀ p ∈ foreignCapitals, p.2 ≠ [] := by decide
  rcases capitals_cases c with h | h
  · rw [h]
    exact List.cons_ne_nil _ _
  · exact hforeign _ h

theorem eq_space_of_toUpper {c : Char} (h : c.toUpper = ' ') : c = ' ' :=
  forall_char (p := fun c => c.toUpper = ' ' → c = ' ') (by decide)
    (fun _ _ hupper h => hupper.symm.trans h) c h

theorem blank_not_mem_capitals {c : Char} (hc : c ≠ ' ') : ' ' ∉ capitals c := by
  have hforeign : ∀ p ∈ foreignCapitals, ' ' ∉ p.2 := by decide
  rcases capitals_cases c with h | h
  · rw [h, List.mem_singleton]
    exact fun hupper => hc (eq_space_of_toUpper hupper.symm)
  · exact hforeign _ h

/-- A single letter is the capital form of a text only if it is that of its only character. -/
theorem map_toUpper_of_capitals {s t : List Char} (h : s.flatMap capitals = t) (ht : t.length ≤ 1)
    (hforeign : ∀ p ∈ foreignCapitals, p.2 ≠ t) : s.map Char.toUpper = t := by
  cases s with
  | nil => exact h
  | cons c s =>
    have hne := List.length_pos_iff.2 (capitals_ne_nil c)
    rw [List.flatMap_cons] at h
    have hlength : (capitals c).length + (s.flatMap capitals).length = t.length := by
      rw [← h, List.length_append]
    cases s with
    | nil =>
      rw [List.flatMap_nil, List.append_nil] at h
      rcases capitals_cases c with hc | hc
      · rw [← h, hc]
        rfl
      · exact absurd h (hforeign _ hc)
    | cons d s =>
      have hne' := List.length_pos_iff.2 (capitals_ne_nil d)
      rw [List.flatMap_cons, List.length_append] at hlength
      omega

end Text

namespace Assembly

theorem isReserved_of_keyword {name : List Char} (hname : isLabelName name) {k : Keyword}
    (h : (name.flatMap Text.capitals).filter (· ≠ ' ') = k.text) : isReserved name := by
  have hplain := plainWord_of_isLabelName hname
  obtain ⟨c, s, rfl, hc⟩ := exists_cons_of_isLabelName hname
  have hfilter : ((c :: s).flatMap Text.capitals).filter (· ≠ ' ') =
      (c :: s).flatMap Text.capitals := by
    rw [List.filter_eq_self]
    intro d hd
    obtain ⟨e, he, hde⟩ := List.mem_flatMap.1 hd
    have hblank : Text.isBlank ' ' = true := by decide
    have hne : e ≠ ' ' := by
      rintro rfl
      rw [(hplain.plain _ he).isBlank] at hblank
      cases hblank
    refine decide_eq_true ?_
    rintro rfl
    exact Text.blank_not_mem_capitals hne hde
  have hfirst : Text.capitals c = [c.toUpper] := by
    have hforeign : ∀ p ∈ Text.foreignCapitals, isLabelStart p.1 = false := by decide
    rcases Text.capitals_cases c with h | h
    · exact h
    · rw [hforeign _ h] at hc
      cases hc
  rw [hfilter, List.flatMap_cons, hfirst, List.singleton_append] at h
  have hkeyword : ∀ d t, k.text = d :: t → d ≠ '[' →
      t.length ≤ 1 ∧ ∀ p ∈ Text.foreignCapitals, p.2 ≠ t := by
    intro d t ht
    cases k <;> cases ht <;> decide
  have hbracket : c.toUpper ≠ '[' :=
    forall_basic (p := fun c => isLabelStart c → c.toUpper ≠ '[') (by decide)
      (lt_of_isLabelStart hc) hc
  obtain ⟨hlength, hforeign⟩ := hkeyword _ _ h.symm hbracket
  refine isReserved_of_toUpper (k := k) ?_
  rw [← h, List.map_cons, Text.map_toUpper_of_capitals rfl hlength hforeign]

/-- A name of a label that is not reserved is a value. -/
theorem Operand.ofText_of_isLabelName {name : List Char} (hname : isLabelName name)
    (h : isReserved name = false) : ofText name = .value name := by
  rw [ofText]
  cases hx : registerOfText? name with
  | some x =>
    rw [isReserved_of_registerOfText? hx] at h
    cases h
  | none =>
    cases hk : Keyword.ofText? ((name.flatMap Text.capitals).filter (· ≠ ' ')) with
    | none => rfl
    | some k =>
      rw [isReserved_of_keyword hname (Keyword.text_of_ofText? hk).symm] at h
      cases h

end Assembly

end ChipEight
