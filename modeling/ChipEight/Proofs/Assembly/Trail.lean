/-
The second pass of the assembler follows the trail of the first.

The first pass goes from statement to statement and notes their addresses, and of the labels of the
second pass it knows some already.  As long as the second pass meets no fault, it stands at the
addresses that were noted; so its fault is that of the first statement that cannot be assembled at
the address that was noted for it.

Main definitions:
* `Trail`: how the first pass goes over statements;
* `Placed.StandsIn`: a statement is what is left of a line;
* `Placed.fault?`: what is wrong with a statement at the address that was noted for it.

Main statements:
* `Layout.trail_of_ofSource`: a text is laid out along a trail;
* `Trail.fault_emit`: the fault of the second pass is the first fault on the trail;
* `fault_of_line`: if all other lines can be assembled, the fault is that of a line;
* `exists_line_of_assemble_eq_error`: an error names a line that is not blank.
-/
import ChipEight.Proofs.Assembly.Addresses

namespace ChipEight.Assembly

/-! ## Lines of statements -/

/-- The statement is what is left of a line without its labels and its comment. -/
structure Placed.StandsIn (p : Placed) (line : Nat) (raw : List Char) : Prop where
  line_eq : p.line = line
  text_eq : p.text = (peelLabels (withoutComment raw)).2
  text_ne_nil : p.text ≠ []
  statement_eq : p.statement = .ofText p.text

theorem peelLabels_nil : peelLabels [] = ([], []) :=
  peelLabels_of_splitLabel?_eq_none rfl

theorem Placed.StandsIn.withoutComment_ne_nil {p : Placed} {line : Nat} {raw : List Char}
    (h : p.StandsIn line raw) : withoutComment raw ≠ [] := by
  intro hblank
  apply h.text_ne_nil
  rw [h.text_eq, hblank, peelLabels_nil]

namespace Layout

variable {l l' : Layout} {line : Nat} {raw : List Char} {raws : List (List Char)} {p : Placed}

theorem mem_placed_of_addLine (h : l.addLine line raw = .ok l') (hp : p ∈ l'.placed) :
    p ∈ l.placed ∨ p.StandsIn line raw := by
  obtain ⟨d, hd, hplace⟩ := addLine_spec h
  obtain ⟨-, hplaced, -⟩ := define_spec hd
  rcases place_spec hplace with ⟨-, rfl⟩ | ⟨htext, a, -, rfl⟩
  · rw [hplaced] at hp
    exact .inl hp
  · rcases List.mem_cons.1 hp with rfl | hp
    · exact .inr ⟨rfl, rfl, htext, rfl⟩
    · rw [hplaced] at hp
      exact .inl hp

theorem exists_standsIn_of_addLine (h : l.addLine line raw = .ok l')
    (htext : (peelLabels (withoutComment raw)).2 ≠ []) : ∃ p ∈ l'.placed, p.StandsIn line raw := by
  obtain ⟨d, -, hplace⟩ := addLine_spec h
  rcases place_spec hplace with ⟨hnil, -⟩ | ⟨-, a, -, rfl⟩
  · exact absurd hnil htext
  · exact ⟨_, List.mem_cons_self, rfl, rfl, htext, rfl⟩

/-- Every statement of a layout is what is left of a line. -/
theorem mem_placed_of_addLines (h : l.addLines line raws = .ok l') (hp : p ∈ l'.placed) :
    p ∈ l.placed ∨ ∃ index raw, raws[index]? = some raw ∧ p.StandsIn (line + index) raw := by
  induction raws generalizing l line with
  | nil =>
    cases h
    exact .inl hp
  | cons first raws ih =>
    obtain ⟨next, hnext, hrest⟩ := addLines_cons h
    rcases ih hrest with hp | ⟨index, raw, hraw, hstands⟩
    · rcases mem_placed_of_addLine hnext hp with hp | hstands
      · exact .inl hp
      · exact .inr ⟨0, first, rfl, hstands⟩
    · refine .inr ⟨index + 1, raw, hraw, ?_⟩
      rw [Nat.add_comm index, ← Nat.add_assoc]
      exact hstands

theorem exists_line_of_mem_placed {source : List Char} {base : Int}
    (h : ofSource source base = .ok l) (hp : p ∈ l.placed) :
    ∃ index raw, (source.splitOn '\n')[index]? = some raw ∧ p.StandsIn (index + 1) raw := by
  rcases mem_placed_of_addLines h hp with hstart | ⟨index, raw, hraw, hstands⟩
  · cases hstart
  · rw [Nat.add_comm] at hstands
    exact ⟨index, raw, hraw, hstands⟩

/-- A statement with the number of a line is what is left of the line. -/
theorem standsIn_of_line_eq {source : List Char} {base : Int} {before rest : List (List Char)}
    (h : ofSource source base = .ok l) (hsplit : source.splitOn '\n' = before ++ raw :: rest)
    (hp : p ∈ l.placed) (hline : p.line = before.length + 1) :
    p.StandsIn (before.length + 1) raw := by
  obtain ⟨index, raw', hraw, hstands⟩ := exists_line_of_mem_placed h hp
  have hindex : index = before.length := Nat.succ.inj (hstands.line_eq.symm.trans hline)
  subst hindex
  rw [hsplit, List.getElem?_append_right (Nat.le_refl _), Nat.sub_self] at hraw
  cases hraw
  exact hstands

/-- A line with a statement has it among the statements of the layout. -/
theorem exists_standsIn {source : List Char} {base : Int} {before rest : List (List Char)}
    (h : ofSource source base = .ok l) (hsplit : source.splitOn '\n' = before ++ raw :: rest)
    (htext : (peelLabels (withoutComment raw)).2 ≠ []) :
    ∃ p ∈ l.placed, p.StandsIn (before.length + 1) raw := by
  rw [ofSource, hsplit] at h
  obtain ⟨here, -, hafter⟩ := addLines_append h
  obtain ⟨next, hnext, hrest⟩ := addLines_cons hafter
  obtain ⟨more, hmore⟩ := (grows_addLines hrest).placed
  obtain ⟨p, hp, hstands⟩ := exists_standsIn_of_addLine hnext htext
  rw [Nat.add_comm] at hstands
  refine ⟨p, ?_, hstands⟩
  rw [hmore]
  exact List.mem_append_right _ hp

/-- There is nothing wrong with a blank line. -/
theorem addLine_of_blank (h : withoutComment raw = []) : l.addLine line raw = .ok l := by
  rw [addLine, h, peelLabels_nil]
  rfl

/-- An error of the first pass names a line that is not blank. -/
theorem exists_line_of_addLines_eq_error {e : Error} (h : l.addLines line raws = .error e) :
    ∃ index raw, raws[index]? = some raw ∧ e.line = (line + index : Nat) ∧
      withoutComment raw ≠ [] := by
  induction raws generalizing l line with
  | nil => cases h
  | cons first raws ih =>
    rw [addLines] at h
    cases hfirst : l.addLine line first with
    | error cause =>
      rw [hfirst] at h
      cases h
      refine ⟨0, first, rfl, rfl, fun hblank => ?_⟩
      rw [addLine_of_blank hblank] at hfirst
      cases hfirst
    | ok next =>
      rw [hfirst] at h
      obtain ⟨index, raw, hraw, hline, hblank⟩ := ih h
      refine ⟨index + 1, raw, hraw, ?_, hblank⟩
      rw [hline, Nat.add_comm index, ← Nat.add_assoc]

end Layout

/-! ## The trail of the first pass -/

/-- The first pass goes over statements from one address to another, and of a table of labels it
knows some at each of them. -/
inductive Trail (late : Labels) : Int → List Placed → Int → Prop
  /-- Without statements it stays where it is. -/
  | nil (a : Int) : Trail late a [] a
  /-- It notes the address of a statement and goes on behind it. -/
  | cons {l : Layout} {p : Placed} {ps : List Placed} {b c : Int} (known : late.Extends l.labels)
      (noted : p.address = l.address) (goes : l.addressAfter p.statement = .ok b)
      (rest : Trail late b ps c) : Trail late l.address (p :: ps) c

theorem Trail.snoc {late : Labels} {a b c : Int} {l : Layout} {p : Placed} {ps : List Placed}
    (h : Trail late a ps b) (hb : l.address = b) (known : late.Extends l.labels)
    (noted : p.address = l.address) (goes : l.addressAfter p.statement = .ok c) :
    Trail late a (ps ++ [p]) c := by
  induction h with
  | nil a =>
    rw [← hb]
    exact .cons known noted goes (.nil c)
  | cons known' noted' goes' _ ih => exact .cons known' noted' goes' (ih hb)

namespace Layout

variable {l l' : Layout} {line : Nat} {raw : List Char} {late : Labels} {base : Int}

theorem trail_addLine (he : late.Extends l'.labels) (h : l.addLine line raw = .ok l')
    (ht : Trail late base l.placed.reverse l.address) :
    Trail late base l'.placed.reverse l'.address := by
  obtain ⟨d, hd, hp⟩ := addLine_spec h
  obtain ⟨haddress, hplaced, -⟩ := define_spec hd
  rcases place_spec hp with ⟨-, rfl⟩ | ⟨-, a, ha, rfl⟩
  · rw [hplaced, haddress]
    exact ht
  · rw [List.reverse_cons, hplaced]
    exact ht.snoc haddress he rfl ha

theorem trail_addLines {raws : List (List Char)} (he : late.Extends l'.labels)
    (h : l.addLines line raws = .ok l') (ht : Trail late base l.placed.reverse l.address) :
    Trail late base l'.placed.reverse l'.address := by
  induction raws generalizing l line with
  | nil =>
    cases h
    exact ht
  | cons raw raws ih =>
    obtain ⟨next, hnext, hrest⟩ := addLines_cons h
    have hknown := he.trans (grows_addLines hrest).labels
    exact ih hrest (trail_addLine hknown hnext ht)

/-- A text is laid out along a trail, which knows of the labels of the whole text. -/
theorem trail_of_ofSource {source : List Char} (h : ofSource source base = .ok l) :
    Trail l.labels base l.placed.reverse l.address :=
  trail_addLines (Labels.Extends.refl _) h (.nil base)

end Layout

/-! ## The second pass on the trail -/

/-- What is wrong with the statement at the address that was noted for it. -/
def Placed.fault? (labels : Labels) (p : Placed) : Option Error :=
  match p.emit labels p.address with
  | .error e => some e
  | .ok _ => none

theorem Placed.line_of_fault? {labels : Labels} {p : Placed} {e : Error}
    (h : p.fault? labels = some e) : e.line = p.line := by
  rw [fault?, emit] at h
  cases hb : p.statement.emit labels p.address with
  | error cause =>
    rw [hb] at h
    cases h
    rfl
  | ok bytes =>
    rw [hb] at h
    cases h

/-- The fault of the second pass is that of the first statement that cannot be assembled at the
address that was noted for it. -/
theorem Trail.fault_emit {late : Labels} {a b : Int} {ps : List Placed} (hn : late.Named)
    (h : Trail late a ps b) : (emit late a ps).fault = ps.findSome? (Placed.fault? late) := by
  induction h with
  | nil a => rfl
  | @cons l p ps b c known noted goes _ ih =>
    rw [emit, List.findSome?_cons, Placed.fault?, noted]
    cases hp : p.emit late l.address with
    | error e => rfl
    | ok piece =>
      have hb := (contributes_of_emit hn known goes (Placed.emit_eq_ok hp).1).2
      dsimp only
      rw [← hb, ih]

section Source

variable {source : List Char} {base : Int} {l : Layout} {e : Error}

theorem fault_of_ofSource (h : Layout.ofSource source base = .ok l) :
    (l.output l.labels base).fault = l.placed.reverse.findSome? (Placed.fault? l.labels) :=
  (Layout.trail_of_ofSource h).fault_emit (Layout.named_of_ofSource h)

/-- If all other lines can be assembled, the fault of the second pass is that of a line. -/
theorem fault_of_line {before rest : List (List Char)} {raw : List Char} {f : Option Error}
    (h : Layout.ofSource source base = .ok l)
    (hsplit : source.splitOn '\n' = before ++ raw :: rest)
    (htext : (peelLabels (withoutComment raw)).2 ≠ [])
    (hothers : ∀ p ∈ l.placed, p.line ≠ before.length + 1 → p.fault? l.labels = none)
    (hline : ∀ p : Placed, p.StandsIn (before.length + 1) raw → p.fault? l.labels = f) :
    (l.output l.labels base).fault = f := by
  have hcases : ∀ p ∈ l.placed, p.fault? l.labels = none ∨ p.fault? l.labels = f := by
    intro p hp
    by_cases hn : p.line = before.length + 1
    · exact .inr (hline p (Layout.standsIn_of_line_eq h hsplit hp hn))
    · exact .inl (hothers p hp hn)
  rw [fault_of_ofSource h]
  cases hfault : l.placed.reverse.findSome? (Placed.fault? l.labels) with
  | none =>
    obtain ⟨p, hp, hstands⟩ := Layout.exists_standsIn h hsplit htext
    rw [← hline p hstands]
    exact (List.findSome?_eq_none_iff.1 hfault p (List.mem_reverse.2 hp)).symm
  | some e =>
    obtain ⟨p, hp, hpe⟩ := List.exists_of_findSome?_eq_some hfault
    rcases hcases p (List.mem_reverse.1 hp) with hnone | hf
    · rw [hnone] at hpe
      cases hpe
    · rw [← hf, hpe]

/-- An error names a line that is not blank without its comment. -/
theorem exists_line_of_assemble_eq_error (h : assemble source base = .error e) :
    ∃ index raw, (source.splitOn '\n')[index]? = some raw ∧ e.line = (index + 1 : Nat) ∧
      withoutComment raw ≠ [] := by
  cases hl : Layout.ofSource source base with
  | error e' =>
    rw [assemble, emission, hl] at h
    cases h
    obtain ⟨index, raw, hraw, hline, hblank⟩ := Layout.exists_line_of_addLines_eq_error hl
    exact ⟨index, raw, hraw, by omega, hblank⟩
  | ok l =>
    rw [Layout.assemble_of_ofSource hl, Emission.image, fault_of_ofSource hl] at h
    split at h
    · rename_i e' hfault
      cases h
      obtain ⟨p, hp, hpe⟩ := List.exists_of_findSome?_eq_some hfault
      obtain ⟨index, raw, hraw, hstands⟩ :=
        Layout.exists_line_of_mem_placed hl (List.mem_reverse.1 hp)
      refine ⟨index, raw, hraw, ?_, hstands.withoutComment_ne_nil⟩
      rw [Placed.line_of_fault? hpe, hstands.line_eq]
    · cases h

end Source

end ChipEight.Assembly
