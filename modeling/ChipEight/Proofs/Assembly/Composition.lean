/-
Texts that are put one behind the other are assembled one behind the other.

The second text is laid out on top of what is known of the first: it goes on where the first ends,
its labels come before those of the first, and its lines are counted on.  No value changes by that,
because a label of the one text is neither a label nor a number of the other.

Main definitions:
* `definedLabels`: the labels that a text defines;
* `Layout.above`: a layout on top of another.

Main statements:
* `emit_of_extends`: statements without fault keep their pieces when labels are added;
* `Layout.addLines_above`: lines are laid out in the same way on top of another layout;
* `isSome_lookup_iff`: a layout knows exactly the labels that its text defines;
* `assemble_append`: two texts are assembled one behind the other exactly if they share no label.
-/
import ChipEight.Proofs.Assembly.Addresses

namespace ChipEight.Assembly

/-- The labels that a source text defines. -/
def definedLabels (source : List Char) : List (List Char) :=
  (source.splitOn '\n').flatMap fun raw => (peelLabels (withoutComment raw)).1

/-! ## More labels -/

section Extends

variable {late early : Labels} (hn : late.Named) (he : late.Extends early)
include hn he

theorem values_of_extends {tokens : List (List Char)} {vs : List Int}
    (h : values early tokens = .ok vs) : values late tokens = .ok vs := by
  induction tokens generalizing vs with
  | nil => exact h
  | cons token rest ih =>
    obtain ⟨v, vs', hv, hvs, rfl⟩ := values_cons_eq_ok_iff.1 h
    exact values_cons_eq_ok_iff.2 ⟨v, vs', value_of_extends hn he hv, ih hvs, rfl⟩

theorem number?_of_extends {o : Operand} {n : Option Int} (h : o.number? early = .ok n) :
    o.number? late = .ok n := by
  cases o with
  | register x => exact h
  | keyword k => exact h
  | value token =>
    rw [Operand.number?] at h ⊢
    cases hv : value early token with
    | error e =>
      rw [hv] at h
      cases h
    | ok v =>
      rw [hv] at h
      rw [value_of_extends hn he hv]
      exact h

theorem numbers_of_extends {operands : List Operand} {ns : List Int}
    (h : numbers early operands = .ok ns) : numbers late operands = .ok ns := by
  induction operands generalizing ns with
  | nil => exact h
  | cons o os ih =>
    rw [numbers] at h ⊢
    cases ho : o.number? early with
    | error e =>
      rw [ho] at h
      cases h
    | ok n =>
      cases hos : numbers early os with
      | error e =>
        rw [ho, hos] at h
        cases h
      | ok ns' =>
        rw [ho, hos] at h
        rw [number?_of_extends hn he ho, ih hos]
        exact h

/-- An instruction that is assembled stays the same when labels are added. -/
theorem instruction_of_extends {text : List Char} {i : Instruction}
    (h : instruction early text = .ok i) : instruction late text = .ok i := by
  unfold instruction at h ⊢
  dsimp only at h ⊢
  split at h
  · cases h
  · rename_i o ho
    split at h
    · cases h
    · rename_i ns hns
      rw [numbers_of_extends hn he hns]
      exact h

theorem Statement.emit_of_extends {statement : Statement} {address : Int} {bytes : Image}
    (h : statement.emit early address = .ok bytes) : statement.emit late address = .ok bytes := by
  cases statement with
  | origin token =>
    obtain ⟨target, hv, hbytes⟩ := emit_origin_eq_ok_iff.1 h
    exact emit_origin_eq_ok_iff.2 ⟨target, value_of_extends hn he hv, hbytes⟩
  | bytes operands =>
    obtain ⟨vs, hvs, hbytes⟩ := emit_bytes_eq_ok_iff.1 h
    exact emit_bytes_eq_ok_iff.2 ⟨vs, values_of_extends hn he hvs, hbytes⟩
  | words operands =>
    obtain ⟨vs, hvs, hbytes⟩ := emit_words_eq_ok_iff.1 h
    exact emit_words_eq_ok_iff.2 ⟨vs, values_of_extends hn he hvs, hbytes⟩
  | instruction text =>
    obtain ⟨i, word, hi, hword, hbytes⟩ := emit_instruction_eq_ok_iff.1 h
    exact emit_instruction_eq_ok_iff.2 ⟨i, word, instruction_of_extends hn he hi, hword, hbytes⟩

/-- Statements without fault keep their pieces when labels are added. -/
theorem emit_of_extends {address : Int} {ps : List Placed}
    (h : (emit early address ps).fault = none) : emit late address ps = emit early address ps := by
  induction ps generalizing address with
  | nil => rfl
  | cons p ps ih =>
    rw [emit] at h ⊢
    rw [emit]
    cases hb : p.statement.emit early address with
    | error e =>
      rw [Placed.emit, hb] at h
      cases h
    | ok bytes =>
      rw [Placed.emit, hb] at h
      rw [Placed.emit, Placed.emit, hb, Statement.emit_of_extends hn he hb]
      dsimp only at h ⊢
      rw [ih h]

end Extends

/-! ## More lines before -/

/-- The statement in a text with more lines before it. -/
def Placed.shift (n : Nat) (p : Placed) : Placed :=
  { p with line := p.line + n }

/-- The pieces do not depend on the numbers of the lines. -/
theorem emit_map_shift {labels : Labels} {address : Int} {ps : List Placed} (n : Nat)
    (h : (emit labels address ps).fault = none) :
    emit labels address (ps.map (Placed.shift n)) = emit labels address ps := by
  induction ps generalizing address with
  | nil => rfl
  | cons p ps ih =>
    rw [emit] at h
    rw [List.map_cons, emit, emit]
    have hshift : (p.shift n).statement = p.statement ∧ (p.shift n).text = p.text := ⟨rfl, rfl⟩
    cases hb : p.statement.emit labels address with
    | error e =>
      rw [Placed.emit, hb] at h
      cases h
    | ok bytes =>
      rw [Placed.emit, hb] at h
      rw [Placed.emit, Placed.emit, hshift.1, hshift.2, hb]
      dsimp only at h ⊢
      rw [ih h]

/-! ## Tables of labels put together -/

namespace Labels

variable {a b : Labels}

theorem Named.append (ha : a.Named) (hb : b.Named) : Named (a ++ b) := by
  intro p hp
  rcases List.mem_append.1 hp with hp | hp
  · exact ha p hp
  · exact hb p hp

theorem extends_append_left (a b : Labels) : Extends (a ++ b) a := by
  intro name address h
  rw [List.lookup_append, h]
  rfl

theorem extends_append_right (h : ∀ name, (b.lookup name).isSome → a.lookup name = none) :
    Extends (a ++ b) b := by
  intro name address hb
  rw [List.lookup_append, h name (by rw [hb]; rfl), hb]
  rfl

end Labels

/-! ## Labels that are new -/

namespace Layout

variable {l l' r r' : Layout} {line n : Nat} {raw text : List Char}

/-- Labels are only defined if they are new. -/
theorem lookup_of_define {names : List (List Char)} (h : l.define names = .ok l')
    {name : List Char} (hname : name ∈ names) : l.labels.lookup name = none := by
  induction names generalizing l with
  | nil => cases hname
  | cons first names ih =>
    rw [define] at h
    split at h
    · cases h
    · rename_i hnew
      rcases List.mem_cons.1 hname with rfl | hname
      · exact Option.not_isSome_iff_eq_none.1 hnew
      · have hrest := ih h hname
        rw [List.lookup_cons] at hrest
        split at hrest
        · cases hrest
        · exact hrest

/-- The labels of lines are new to the layout that the lines are added to. -/
theorem lookup_of_addLines {raws : List (List Char)} (h : l.addLines line raws = .ok l')
    (hraw : raw ∈ raws) {name : List Char} (hname : name ∈ (peelLabels (withoutComment raw)).1) :
    l.labels.lookup name = none := by
  induction raws generalizing l line with
  | nil => cases hraw
  | cons first raws ih =>
    obtain ⟨next, hnext, hrest⟩ := addLines_cons h
    rcases List.mem_cons.1 hraw with rfl | hraw
    · obtain ⟨d, hd, -⟩ := addLine_spec hnext
      exact lookup_of_define hd hname
    · -- What is known before the first line is known after it.
      have hlater := ih hrest hraw
      cases hl : l.labels.lookup name with
      | none => rfl
      | some address =>
        rw [(grows_addLine hnext).labels name address hl] at hlater
        cases hlater

/-- The labels of lines are known afterwards. -/
theorem isSome_lookup_of_addLines {raws : List (List Char)} (h : l.addLines line raws = .ok l')
    (hraw : raw ∈ raws) {name : List Char} (hname : name ∈ (peelLabels (withoutComment raw)).1) :
    (l'.labels.lookup name).isSome := by
  induction raws generalizing l line with
  | nil => cases hraw
  | cons first raws ih =>
    obtain ⟨next, hnext, hrest⟩ := addLines_cons h
    rcases List.mem_cons.1 hraw with rfl | hraw
    · obtain ⟨d, hd, hp⟩ := addLine_spec hnext
      obtain ⟨-, -, -, hnames, -⟩ := define_spec hd
      have hknown := hnames name hname
      rw [← labels_place hp] at hknown
      rw [(grows_addLines hrest).labels name _ hknown]
      rfl
    · exact ih hrest hraw

/-- A layout knows exactly the labels that its text defines. -/
theorem isSome_lookup_iff {source : List Char} {base : Int} (h : ofSource source base = .ok l)
    {name : List Char} : (l.labels.lookup name).isSome ↔ name ∈ definedLabels source := by
  rw [definedLabels, List.mem_flatMap]
  constructor
  · intro hknown
    obtain ⟨address, hlookup⟩ := Option.isSome_iff_exists.1 hknown
    exact exists_line_of_lookup h hlookup
  · rintro ⟨raw, hraw, hname⟩
    exact isSome_lookup_of_addLines h hraw hname

/-! ## A layout on top of another -/

/-- The layout `r` on top of `l`, where `n` lines were read for `l`. -/
def above (l : Layout) (n : Nat) (r : Layout) : Layout :=
  ⟨r.address, r.labels ++ l.labels, r.placed.map (Placed.shift n) ++ l.placed⟩

theorem define_above {names : List (List Char)}
    (hfresh : ∀ name ∈ names, l.labels.lookup name = none) (h : r.define names = .ok r') :
    (l.above n r).define names = .ok (l.above n r') := by
  induction names generalizing r with
  | nil =>
    cases h
    rfl
  | cons name names ih =>
    rw [define] at h
    split at h
    · cases h
    · rename_i hnew
      have hboth : ((l.above n r).labels.lookup name).isSome = false := by
        have hl := hfresh name List.mem_cons_self
        change ((r.labels ++ l.labels).lookup name).isSome = false
        rw [List.lookup_append, hl, Option.or_none]
        exact Bool.eq_false_iff.2 hnew
      rw [define, hboth]
      exact ih (fun other hother => hfresh other (List.mem_cons_of_mem _ hother)) h

theorem addressAfter_above (hn : Labels.Named (r.labels ++ l.labels)) {statement : Statement}
    {a : Int} (h : r.addressAfter statement = .ok a) :
    (l.above n r).addressAfter statement = .ok a := by
  cases statement with
  | origin target =>
    rw [addressAfter] at h ⊢
    cases hv : value r.labels target with
    | error e =>
      rw [hv] at h
      cases h
    | ok v =>
      rw [hv] at h
      have hboth : value (l.above n r).labels target = .ok v :=
        value_of_extends hn (Labels.extends_append_left _ _) hv
      rw [hboth]
      exact h
  | bytes operands => exact h
  | words operands => exact h
  | instruction text => exact h

theorem place_above (hn : Labels.Named (r.labels ++ l.labels)) (h : r.place line text = .ok r') :
    (l.above n r).place (line + n) text = .ok (l.above n r') := by
  rcases place_spec h with ⟨htext, rfl⟩ | ⟨htext, a, ha, rfl⟩
  · rw [place, if_pos htext]
  · rw [place, if_neg htext]
    dsimp only
    rw [addressAfter_above hn ha]
    rfl

theorem addLine_above (hl : l.labels.Named) (hr : r'.labels.Named)
    (hfresh : ∀ name ∈ (peelLabels (withoutComment raw)).1, l.labels.lookup name = none)
    (h : r.addLine line raw = .ok r') :
    (l.above n r).addLine (line + n) raw = .ok (l.above n r') := by
  obtain ⟨d, hd, hp⟩ := addLine_spec h
  have hn : Labels.Named (d.labels ++ l.labels) := by
    rw [← labels_place hp]
    exact hr.append hl
  rw [addLine]
  dsimp only
  rw [define_above hfresh hd]
  exact place_above hn hp

/-- Lines with new labels are laid out in the same way on top of another layout. -/
theorem addLines_above {raws : List (List Char)} (hl : l.labels.Named) (hr : r.labels.Named)
    (hfresh : ∀ raw ∈ raws, ∀ name ∈ (peelLabels (withoutComment raw)).1,
      l.labels.lookup name = none)
    (h : r.addLines line raws = .ok r') :
    (l.above n r).addLines (line + n) raws = .ok (l.above n r') := by
  induction raws generalizing r line with
  | nil =>
    cases h
    rfl
  | cons raw raws ih =>
    obtain ⟨next, hnext, hrest⟩ := addLines_cons h
    have hnamed := (grows_addLine hnext).named_of_named hr
    have hraw := addLine_above (n := n) hl hnamed (hfresh raw List.mem_cons_self) hnext
    have hraws := ih hnamed (fun other hother => hfresh other (List.mem_cons_of_mem _ hother)) hrest
    rw [addLines, hraw]
    dsimp only
    rw [Nat.add_right_comm]
    exact hraws

/-- The pieces of a layout on top of another come behind the pieces of that one. -/
theorem output_above {base : Int} (hn : Labels.Named (r.labels ++ l.labels))
    (he : Labels.Extends (r.labels ++ l.labels) l.labels)
    (hl : (l.output l.labels base).fault = none)
    (hr : (r.output r.labels (base + (l.output l.labels base).bytes.length)).fault = none) :
    (l.above n r).output (r.labels ++ l.labels) base =
      ⟨(l.output l.labels base).pieces ++
        (r.output r.labels (base + (l.output l.labels base).bytes.length)).pieces, none⟩ := by
  -- Neither of them has other pieces because of the labels of the other one.
  have hlower : l.output (r.labels ++ l.labels) base = l.output l.labels base :=
    emit_of_extends hn he hl
  have hupper := emit_of_extends hn (Labels.extends_append_left _ _) hr
  rw [output] at hr
  have hshift := emit_map_shift n (hupper ▸ hr)
  have hplaced : (l.above n r).placed.reverse =
      l.placed.reverse ++ r.placed.reverse.map (Placed.shift n) := by
    rw [above, List.reverse_append, List.map_reverse]
  rw [output] at hlower
  rw [output, hplaced, emit_append_of_ok (by rw [hlower]; exact hl), hlower, hshift, hupper]
  exact congrArg (Emission.mk _) hr

end Layout

/-! ## Two texts -/

section Texts

variable {s₁ s₂ : List Char} {base : Int} {l₁ l₂ m : Layout}

/-- A text that shares no label with the text before it is laid out on top of that one. -/
theorem ofSource_append (h₁ : Layout.ofSource s₁ base = .ok l₁)
    (h₂ : Layout.ofSource s₂ l₁.address = .ok l₂)
    (hdisjoint : ∀ name ∈ definedLabels s₁, name ∉ definedLabels s₂) :
    Layout.ofSource (s₁ ++ '\n' :: s₂) base = .ok (l₁.above (s₁.splitOn '\n').length l₂) := by
  have hfresh : ∀ raw ∈ s₂.splitOn '\n', ∀ name ∈ (peelLabels (withoutComment raw)).1,
      l₁.labels.lookup name = none := by
    intro raw hraw name hname
    have hs₂ : name ∈ definedLabels s₂ := List.mem_flatMap.2 ⟨raw, hraw, hname⟩
    rw [← Option.not_isSome_iff_eq_none, Layout.isSome_lookup_iff h₁]
    exact fun hs₁ => hdisjoint name hs₁ hs₂
  rw [Layout.ofSource, List.splitOn_append_cons_self, Layout.addLines_append_of_ok h₁]
  -- The layout of the first text is the start of the second on top of it.
  exact Layout.addLines_above (r := Layout.start l₁.address) (Layout.named_of_ofSource h₁)
    (fun p hp => absurd hp List.not_mem_nil) hfresh h₂

/-- Texts that are put one behind the other have no label in common, if they can be laid out. -/
theorem disjoint_of_ofSource (h₁ : Layout.ofSource s₁ base = .ok l₁)
    (hm : Layout.ofSource (s₁ ++ '\n' :: s₂) base = .ok m) :
    ∀ name ∈ definedLabels s₁, name ∉ definedLabels s₂ := by
  intro name hs₁ hs₂
  obtain ⟨raw, hraw, hname⟩ := List.mem_flatMap.1 hs₂
  rw [Layout.ofSource, List.splitOn_append_cons_self, Layout.addLines_append_of_ok h₁] at hm
  have hknown := (Layout.isSome_lookup_iff h₁).2 hs₁
  rw [Layout.lookup_of_addLines hm hraw hname] at hknown
  cases hknown

/-- Two texts, of which the second is assembled for the address where the first ends, are assembled
together into the one image behind the other, exactly if no label is defined in both. -/
theorem assemble_append (s₁ s₂ : List Char) (base : Int) (i₁ i₂ : Image)
    (h₁ : assemble s₁ base = .ok i₁) (h₂ : assemble s₂ (base + i₁.length) = .ok i₂) :
    assemble (s₁ ++ '\n' :: s₂) base = .ok (i₁ ++ i₂) ↔
      ∀ name ∈ definedLabels s₁, name ∉ definedLabels s₂ := by
  obtain ⟨l₁, hl₁, hfault₁, rfl⟩ := Layout.exists_output_of_assemble h₁
  constructor
  · intro h
    obtain ⟨m, hm, -⟩ := Layout.exists_output_of_assemble h
    exact disjoint_of_ofSource hl₁ hm
  · intro hdisjoint
    obtain ⟨l₂, hl₂, hfault₂, rfl⟩ := Layout.exists_output_of_assemble h₂
    have hreached := Layout.reaches_of_ofSource hl₁ hfault₁
    have hn : Labels.Named (l₂.labels ++ l₁.labels) :=
      (Layout.named_of_ofSource hl₂).append (Layout.named_of_ofSource hl₁)
    have he : Labels.Extends (l₂.labels ++ l₁.labels) l₁.labels := by
      refine Labels.extends_append_right fun name hname => ?_
      rw [← Option.not_isSome_iff_eq_none, Layout.isSome_lookup_iff hl₂]
      exact hdisjoint name ((Layout.isSome_lookup_iff hl₁).1 hname)
    have hboth := ofSource_append hl₁ (hreached ▸ hl₂) hdisjoint
    have houtput := Layout.output_above (n := (s₁.splitOn '\n').length) hn he hfault₁ hfault₂
    rw [Layout.assemble_of_ofSource hboth]
    change ((l₁.above _ l₂).output (l₂.labels ++ l₁.labels) base).image = _
    rw [houtput, Emission.image]
    dsimp only
    rw [Emission.bytes, List.flatMap_append]
    rfl

/-- Both texts define labels and move their origins, and the first has an odd number of bytes. -/
theorem assemble_append_behind_padding :
    assemble ("a: jp end\n.org 0x206\nend: .db 1".toList ++
        '\n' :: "pic: ld i, pic\n.org 0x20A\n.dw pic".toList) 0x200 =
      .ok ([0x12, 0x06, 0, 0, 0, 0, 1] ++ [0xA2, 0x07, 0, 0x02, 0x07]) := by
  have h₁ : assemble "a: jp end\n.org 0x206\nend: .db 1".toList 0x200 =
      .ok [0x12, 0x06, 0, 0, 0, 0, 1] := by decide +kernel
  have h₂ : assemble "pic: ld i, pic\n.org 0x20A\n.dw pic".toList
      (0x200 + ([0x12, 0x06, 0, 0, 0, 0, 1] : Image).length) =
      .ok [0xA2, 0x07, 0, 0x02, 0x07] := by decide +kernel
  have hlabels₁ : definedLabels "a: jp end\n.org 0x206\nend: .db 1".toList =
      [['a'], ['e', 'n', 'd']] := by decide +kernel
  have hlabels₂ : definedLabels "pic: ld i, pic\n.org 0x20A\n.dw pic".toList =
      [['p', 'i', 'c']] := by decide +kernel
  refine (assemble_append _ _ _ _ _ h₁ h₂).2 ?_
  rw [hlabels₁, hlabels₂]
  decide

end Texts

end ChipEight.Assembly
