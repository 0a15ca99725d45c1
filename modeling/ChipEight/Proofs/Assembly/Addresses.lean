/-
The two passes of the assembler agree on every address.

The first pass finds the addresses without assembling anything; the second puts the pieces of the
image one after the other.  At every line the address that the first pass has reached is the base
together with the length of the pieces before the line.

Main definitions:
* `Contributes`: the piece of a statement, with what both passes know of it;
* `hasStatement`: whether a line has a piece at all.

Main statements:
* `Layout.reaches_addLines`: the invariant of the first pass, that it has reached the end of the
  pieces;
* `Layout.agrees_at_line`: both passes agree at a line;
* `passes_agree`: the pieces, labels and origins of a text that is assembled.
-/
import ChipEight.Assembly.Emission
import ChipEight.Proofs.Assembly.Labels
import Mathlib.Data.List.Forall2

namespace ChipEight.Assembly

/-! ## The pieces of statements -/

/-- The piece of a statement at an address, where the first pass knows some labels and the second
pass knows more. -/
inductive Contributes (early late : Labels) (address : Int) : Statement → Image → Prop
  /-- An instruction has the two bytes that make up its encoding, the high byte first. -/
  | instruction {text : List Char} {i : Instruction} {word : Nat} {high low : UInt8}
      (read : Assembly.instruction late text = .ok i) (encoded : i.encode = .ok word)
      (made : (high.toNat * 256 + low.toNat : Int) = word % 65536) :
      Contributes early late address (.instruction text) [high, low]
  /-- Every byte operand has a byte, which is its value modulo 2^8. -/
  | bytes {operands : List (List Char)} {bytes : Image}
      (made : List.Forall₂
        (fun token b => ∃ v, value late token = .ok v ∧ (b.toNat : Int) = v % 256)
        operands bytes) :
      Contributes early late address (.bytes operands) bytes
  /-- Every word operand has two bytes that make up its value modulo 2^16, the high byte first. -/
  | words {operands : List (List Char)} {pairs : List (UInt8 × UInt8)}
      (made : List.Forall₂
        (fun token p => ∃ v, value late token = .ok v ∧
          (p.1.toNat * 256 + p.2.toNat : Int) = v % 65536)
        operands pairs) :
      Contributes early late address (.words operands) (pairs.flatMap fun p => [p.1, p.2])
  /-- An origin has the zeros up to its target, which both passes know and which does not lie
  behind. -/
  | origin {token : List Char} {target : Int} (first : value early token = .ok target)
      (second : value late token = .ok target) (ahead : address ≤ target) :
      Contributes early late address (.origin token)
        (List.replicate (target - address).toNat 0)

theorem forall₂_of_values {labels : Labels} {operands : List (List Char)} {vs : List Int}
    (h : values labels operands = .ok vs) :
    List.Forall₂ (fun token v => value labels token = .ok v) operands vs := by
  induction operands generalizing vs with
  | nil =>
    cases h
    exact .nil
  | cons token rest ih =>
    obtain ⟨v, vs', hv, hvs, rfl⟩ := values_cons_eq_ok_iff.1 h
    exact .cons hv (ih hvs)

theorem length_flatMap_wordBytes (vs : List Int) :
    (vs.flatMap wordBytes).length = 2 * vs.length := by
  induction vs with
  | nil => rfl
  | cons v vs ih =>
    rw [List.flatMap_cons, List.length_append, ih, List.length_cons]
    simp only [wordBytes, List.length_cons, List.length_nil]
    omega

/-- The two bytes of a word are those that make it up, the high byte first. -/
theorem wordBytes_eq_iff {word : Int} {high low : UInt8} :
    wordBytes word = [high, low] ↔
      (high.toNat * 256 + low.toNat : Int) = word % 65536 := by
  have hhigh := high.toNat_lt
  have hlow := low.toNat_lt
  constructor
  · intro h
    rw [wordBytes, List.cons.injEq, List.cons.injEq] at h
    obtain ⟨rfl, rfl, -⟩ := h
    rw [toNat_ofInt_eq_emod, toNat_ofInt_eq_emod]
    omega
  · intro h
    rw [wordBytes, ofInt_of_emod (b := high) (by omega), ofInt_of_emod (b := low) (by omega)]

theorem contributes_bytes {early late : Labels} {address : Int} {operands : List (List Char)}
    {vs : List Int} (h : List.Forall₂ (fun token v => value late token = .ok v) operands vs) :
    Contributes early late address (.bytes operands) (vs.map UInt8.ofInt) := by
  refine .bytes (List.forall₂_map_right_iff.2 (h.imp fun token v hv => ?_))
  exact ⟨v, hv, toNat_ofInt_eq_emod v⟩

theorem contributes_words {early late : Labels} {address : Int} {operands : List (List Char)}
    {vs : List Int} (h : List.Forall₂ (fun token v => value late token = .ok v) operands vs) :
    Contributes early late address (.words operands) (vs.flatMap wordBytes) := by
  have hpairs : vs.flatMap wordBytes =
      (vs.map fun v => (UInt8.ofInt (v / 256), UInt8.ofInt v)).flatMap fun p => [p.1, p.2] := by
    rw [List.flatMap_map]
    rfl
  rw [hpairs]
  refine .words (List.forall₂_map_right_iff.2 (h.imp fun token v hv => ?_))
  exact ⟨v, hv, wordBytes_eq_iff.1 rfl⟩

/-- The bytes of a statement are its piece, and the first pass goes on behind them. -/
theorem contributes_of_emit {l : Layout} {late : Labels} {statement : Statement} {bytes : Image}
    {a : Int} (hn : late.Named) (he : late.Extends l.labels)
    (ha : l.addressAfter statement = .ok a) (hb : statement.emit late l.address = .ok bytes) :
    Contributes l.labels late l.address statement bytes ∧ a = l.address + bytes.length := by
  cases statement with
  | origin token =>
    obtain ⟨target, hlate, rfl⟩ := Statement.emit_origin_eq_ok_iff.1 hb
    rw [Layout.addressAfter] at ha
    cases hv : value l.labels token with
    | error e =>
      rw [hv] at ha
      cases ha
    | ok first =>
      obtain rfl : target = first := by
        rw [value_of_extends hn he hv] at hlate
        exact (Except.ok.inj hlate).symm
      simp only [hv] at ha
      split at ha
      · cases ha
      · cases ha
        refine ⟨.origin hv hlate (by omega), ?_⟩
        rw [List.length_replicate]
        omega
  | bytes operands =>
    obtain ⟨vs, hvs, rfl⟩ := Statement.emit_bytes_eq_ok_iff.1 hb
    rw [Layout.addressAfter, Except.ok.injEq] at ha
    subst ha
    have hread := forall₂_of_values hvs
    exact ⟨contributes_bytes hread, by rw [List.length_map, hread.length_eq]⟩
  | words operands =>
    obtain ⟨vs, hvs, rfl⟩ := Statement.emit_words_eq_ok_iff.1 hb
    rw [Layout.addressAfter, Except.ok.injEq] at ha
    subst ha
    have hread := forall₂_of_values hvs
    refine ⟨contributes_words hread, ?_⟩
    rw [length_flatMap_wordBytes, hread.length_eq]
    push_cast
    rfl
  | instruction text =>
    obtain ⟨i, word, hi, hw, rfl⟩ := Statement.emit_instruction_eq_ok_iff.1 hb
    rw [Layout.addressAfter, Except.ok.injEq] at ha
    subst ha
    exact ⟨.instruction hi hw (wordBytes_eq_iff.1 rfl), rfl⟩

/-! ## The pieces of a program -/

theorem Placed.emit_eq_ok {labels : Labels} {address : Int} {p : Placed} {piece : Piece}
    (h : p.emit labels address = .ok piece) :
    p.statement.emit labels address = .ok piece.bytes ∧ piece.address = address ∧
      piece.text = p.text := by
  rw [emit] at h
  cases hb : p.statement.emit labels address with
  | error e =>
    rw [hb] at h
    cases h
  | ok bytes =>
    rw [hb] at h
    cases h
    exact ⟨rfl, rfl, rfl⟩

theorem length_pieces {labels : Labels} {address : Int} {ps : List Placed}
    (h : (emit labels address ps).fault = none) :
    (emit labels address ps).pieces.length = ps.length := by
  induction ps generalizing address with
  | nil => rfl
  | cons p ps ih =>
    rw [emit] at h ⊢
    cases hp : p.emit labels address with
    | error e =>
      rw [hp] at h
      cases h
    | ok piece =>
      rw [hp] at h
      exact congrArg (· + 1) (ih h)

/-- If the first of some statements are without fault, the pieces are those of the first of them,
and then those of the others from the address on that is reached. -/
theorem emit_append_of_ok {labels : Labels} {address : Int} {ps : List Placed}
    (h : (emit labels address ps).fault = none) (qs : List Placed) :
    let rest := emit labels (address + (emit labels address ps).bytes.length) qs
    emit labels address (ps ++ qs) =
      ⟨(emit labels address ps).pieces ++ rest.pieces, rest.fault⟩ := by
  induction ps generalizing address with
  | nil =>
    have hzero : address + ((emit labels address []).bytes.length : Int) = address :=
      Int.add_zero address
    dsimp only
    rw [hzero]
    rfl
  | cons p ps ih =>
    rw [emit] at h
    cases hp : p.emit labels address with
    | error e =>
      rw [hp] at h
      cases h
    | ok piece =>
      rw [hp] at h
      have hlength : address + (emit labels address (p :: ps)).bytes.length =
          address + piece.bytes.length +
            (emit labels (address + piece.bytes.length) ps).bytes.length := by
        rw [emit, hp]
        simp only [Emission.bytes, List.flatMap_cons, List.length_append]
        omega
      dsimp only
      rw [hlength, List.cons_append, emit, emit, hp]
      dsimp only
      rw [ih h]
      rfl

/-- A fault among the first statements is a fault of all of them. -/
theorem fault_of_append {labels : Labels} {address : Int} {ps qs : List Placed}
    (h : (emit labels address (ps ++ qs)).fault = none) :
    (emit labels address ps).fault = none := by
  induction ps generalizing address with
  | nil => rfl
  | cons p ps ih =>
    rw [List.cons_append, emit] at h
    rw [emit]
    cases hp : p.emit labels address with
    | error e =>
      rw [hp] at h
      cases h
    | ok piece =>
      rw [hp] at h
      exact ih h

theorem emit_append {labels : Labels} {address : Int} {ps qs : List Placed}
    (h : (emit labels address (ps ++ qs)).fault = none) :
    let reached := address + (emit labels address ps).bytes.length
    (emit labels address ps).fault = none ∧ (emit labels reached qs).fault = none ∧
      (emit labels address (ps ++ qs)).pieces =
        (emit labels address ps).pieces ++ (emit labels reached qs).pieces := by
  have hps := fault_of_append h
  rw [emit_append_of_ok hps] at h ⊢
  exact ⟨hps, h, rfl⟩

/-! ## Lines in the first pass -/

/-- Whether something is left of a line without its labels and its comment. -/
def hasStatement (raw : List Char) : Bool :=
  (peelLabels (withoutComment raw)).2 ≠ []

namespace Layout

variable {l l' d : Layout} {names : List (List Char)} {line : Nat} {raw text : List Char}

theorem define_spec (h : l.define names = .ok d) :
    d.address = l.address ∧ d.placed = l.placed ∧ d.labels.Extends l.labels ∧
      (∀ name ∈ names, d.labels.lookup name = some l.address) ∧
      ∀ p ∈ d.labels, p ∈ l.labels ∨ p.1 ∈ names := by
  induction names generalizing l with
  | nil =>
    cases h
    exact ⟨rfl, rfl, Labels.Extends.refl _, fun _ hn => absurd hn List.not_mem_nil,
      fun _ hp => .inl hp⟩
  | cons name names ih =>
    rw [define] at h
    split at h
    · cases h
    · rename_i hnew
      obtain ⟨ha, hplaced, hext, hnames, hmem⟩ := ih h
      refine ⟨ha, hplaced, ?_, ?_, ?_⟩
      · intro other address ho
        refine hext other address ?_
        have hne : other ≠ name := by
          rintro rfl
          rw [ho] at hnew
          exact hnew rfl
        rw [List.lookup_cons, beq_false_of_ne hne]
        exact ho
      · intro other ho
        rcases List.mem_cons.1 ho with rfl | ho
        · exact hext _ _ List.lookup_cons_self
        · exact hnames other ho
      · intro p hp
        rcases hmem p hp with hp | hp
        · rcases List.mem_cons.1 hp with rfl | hp
          · exact .inr List.mem_cons_self
          · exact .inl hp
        · exact .inr (List.mem_cons_of_mem _ hp)

theorem place_spec (h : l.place line text = .ok l') :
    (text = [] ∧ l' = l) ∨ (text ≠ [] ∧ ∃ a, l.addressAfter (Statement.ofText text) = .ok a ∧
      l' = { l with
        address := a, placed := ⟨line, text, Statement.ofText text, l.address⟩ :: l.placed }) := by
  rw [place] at h
  split at h
  · cases h
    exact .inl ⟨‹_›, rfl⟩
  · refine .inr ⟨‹_›, ?_⟩
    dsimp only at h
    cases ha : l.addressAfter (Statement.ofText text) with
    | error e =>
      rw [ha] at h
      cases h
    | ok a =>
      rw [ha, Except.ok.injEq] at h
      exact ⟨a, rfl, h.symm⟩

theorem labels_place (h : l.place line text = .ok l') : l'.labels = l.labels := by
  rcases place_spec h with ⟨-, rfl⟩ | ⟨-, a, -, rfl⟩
  · rfl
  · rfl

/-- A line defines its labels first, and then its statement is placed. -/
theorem addLine_spec (h : l.addLine line raw = .ok l') :
    ∃ d, l.define (peelLabels (withoutComment raw)).1 = .ok d ∧
      d.place line (peelLabels (withoutComment raw)).2 = .ok l' := by
  rw [addLine] at h
  dsimp only at h
  cases hd : l.define (peelLabels (withoutComment raw)).1 with
  | error e =>
    rw [hd] at h
    cases h
  | ok d =>
    rw [hd] at h
    exact ⟨d, rfl, h⟩

theorem addLines_cons {raws : List (List Char)} (h : l.addLines line (raw :: raws) = .ok l') :
    ∃ next, l.addLine line raw = .ok next ∧ next.addLines (line + 1) raws = .ok l' := by
  rw [addLines] at h
  cases hn : l.addLine line raw with
  | error e =>
    rw [hn] at h
    cases h
  | ok next =>
    rw [hn] at h
    exact ⟨next, rfl, h⟩

theorem addLines_append {raws rest : List (List Char)}
    (h : l.addLines line (raws ++ rest) = .ok l') :
    ∃ here, l.addLines line raws = .ok here ∧
      here.addLines (line + raws.length) rest = .ok l' := by
  induction raws generalizing l line with
  | nil => exact ⟨l, rfl, h⟩
  | cons raw raws ih =>
    obtain ⟨next, hn, hrest⟩ := addLines_cons h
    obtain ⟨here, hh, hl⟩ := ih hrest
    refine ⟨here, by rw [addLines, hn]; exact hh, ?_⟩
    rw [List.length_cons, Nat.add_comm raws.length, ← Nat.add_assoc]
    exact hl

theorem addLines_append_of_ok {raws : List (List Char)} {here : Layout}
    (h : l.addLines line raws = .ok here) (rest : List (List Char)) :
    l.addLines line (raws ++ rest) = here.addLines (line + raws.length) rest := by
  induction raws generalizing l line with
  | nil =>
    cases h
    rfl
  | cons raw raws ih =>
    obtain ⟨next, hn, hrest⟩ := addLines_cons h
    rw [List.cons_append, addLines, hn, List.length_cons, Nat.add_comm raws.length, ← Nat.add_assoc]
    exact ih hrest

/-! ## Growth -/

/-- What lines add to a layout, the names being those of the lines. -/
structure Grows (l l' : Layout) (raws : List (List Char)) : Prop where
  labels : l'.labels.Extends l.labels
  named : ∀ p ∈ l'.labels, p ∈ l.labels ∨ ∃ raw ∈ raws, p.1 ∈ (peelLabels (withoutComment raw)).1
  placed : ∃ more, l'.placed = more ++ l.placed
  length : l'.placed.length = l.placed.length + raws.countP hasStatement

theorem grows_addLine (h : l.addLine line raw = .ok l') : Grows l l' [raw] := by
  obtain ⟨d, hd, hp⟩ := addLine_spec h
  obtain ⟨-, hplaced, hext, -, hmem⟩ := define_spec hd
  have hnamed : ∀ p ∈ d.labels,
      p ∈ l.labels ∨ ∃ r ∈ [raw], p.1 ∈ (peelLabels (withoutComment r)).1 := by
    intro p hp
    rcases hmem p hp with hp | hp
    · exact .inl hp
    · exact .inr ⟨raw, List.mem_singleton.2 rfl, hp⟩
  rcases place_spec hp with ⟨htext, rfl⟩ | ⟨htext, a, -, rfl⟩
  · refine ⟨hext, hnamed, ⟨[], hplaced⟩, ?_⟩
    simp [hplaced, hasStatement, htext]
  · refine ⟨hext, hnamed, ⟨[_], by rw [hplaced]; rfl⟩, ?_⟩
    simp [hplaced, hasStatement, htext]

theorem grows_addLines {raws : List (List Char)} (h : l.addLines line raws = .ok l') :
    Grows l l' raws := by
  induction raws generalizing l line with
  | nil =>
    cases h
    exact ⟨Labels.Extends.refl _, fun _ hp => .inl hp, ⟨[], rfl⟩, rfl⟩
  | cons raw raws ih =>
    obtain ⟨next, hn, hrest⟩ := addLines_cons h
    have h₁ := grows_addLine hn
    have h₂ := ih hrest
    obtain ⟨more₁, hmore₁⟩ := h₁.placed
    obtain ⟨more₂, hmore₂⟩ := h₂.placed
    refine ⟨h₂.labels.trans h₁.labels, fun p hp => ?_, ⟨more₂ ++ more₁, ?_⟩, ?_⟩
    · rcases h₂.named p hp with hp | ⟨r, hr, hp⟩
      · rcases h₁.named p hp with hp | ⟨r, hr, hp⟩
        · exact .inl hp
        · rw [List.mem_singleton] at hr
          exact .inr ⟨raw, List.mem_cons_self, hr ▸ hp⟩
      · exact .inr ⟨r, List.mem_cons_of_mem _ hr, hp⟩
    · rw [hmore₂, hmore₁, List.append_assoc]
    · rw [h₂.length, h₁.length, Nat.add_assoc, ← List.countP_append, List.singleton_append]

theorem Grows.named_of_named {raws : List (List Char)} (h : Grows l l' raws)
    (hn : l.labels.Named) : l'.labels.Named := by
  intro p hp
  rcases h.named p hp with hp | ⟨raw, -, hp⟩
  · exact hn p hp
  · exact exists_cons_of_isLabelName (isLabelName_of_mem_peelLabels hp)

/-! ## The address that is reached -/

/-- The pieces of what a layout has placed. -/
def output (l : Layout) (late : Labels) (base : Int) : Emission :=
  emit late base l.placed.reverse

/-- The layout has reached the end of its pieces. -/
def Reaches (l : Layout) (late : Labels) (base : Int) : Prop :=
  l.address = base + (l.output late base).bytes.length

variable {late : Labels} {base : Int}

/-- The pieces of a layout come first among those of a layout that grows out of it. -/
theorem Grows.exists_pieces {raws : List (List Char)} (h : Grows l l' raws)
    (hok : (l'.output late base).fault = none) :
    (l.output late base).fault = none ∧
      ∃ rest, (l'.output late base).pieces = (l.output late base).pieces ++ rest := by
  obtain ⟨more, hmore⟩ := h.placed
  simp only [output, hmore, List.reverse_append] at hok ⊢
  obtain ⟨hl, -, hpieces⟩ := emit_append hok
  exact ⟨hl, _, hpieces⟩

/-- What a line with a statement adds to the pieces. -/
structure AddsPiece (l d l' : Layout) (late : Labels) (base : Int) (text : List Char)
    (piece : Piece) : Prop where
  pieces_eq : (l'.output late base).pieces = (l.output late base).pieces ++ [piece]
  address_eq : piece.address = l.address
  text_eq : piece.text = text
  contributes : Contributes d.labels late l.address (Statement.ofText text) piece.bytes

/-- A statement is placed where the pieces end, and its piece ends where the layout goes on. -/
theorem addsPiece_of_place (hn : late.Named) (he : late.Extends l'.labels)
    (hok : (l'.output late base).fault = none) (hr : l.Reaches late base)
    (haddress : d.address = l.address) (hplaced : d.placed = l.placed)
    (hp : d.place line text = .ok l') (htext : text ≠ []) :
    l'.Reaches late base ∧ ∃ piece, AddsPiece l d l' late base text piece := by
  rcases place_spec hp with ⟨hnil, -⟩ | ⟨-, a, ha, rfl⟩
  · exact absurd hnil htext
  · simp only [output, List.reverse_cons, hplaced] at hok
    obtain ⟨-, hlast, hpieces⟩ := emit_append hok
    rw [← output, ← hr, emit] at hlast hpieces
    cases hpiece : Placed.emit late l.address
        ⟨line, text, Statement.ofText text, d.address⟩ with
    | error e =>
      rw [hpiece] at hlast
      cases hlast
    | ok piece =>
      rw [hpiece] at hpieces
      obtain ⟨hbytes, hat, htext'⟩ := Placed.emit_eq_ok hpiece
      rw [← haddress] at hbytes
      obtain ⟨hc, hafter⟩ := contributes_of_emit (l := d) hn he ha hbytes
      rw [haddress] at hc hafter
      have hpieces' : (output ⟨a, d.labels, ⟨line, text, Statement.ofText text, d.address⟩ ::
          d.placed⟩ late base).pieces = (l.output late base).pieces ++ [piece] := by
        rw [output, List.reverse_cons, hplaced, hpieces]
        rfl
      refine ⟨?_, piece, hpieces', hat, htext', hc⟩
      rw [Reaches, Emission.bytes, hpieces', List.flatMap_append, List.length_append]
      rw [Reaches, Emission.bytes] at hr
      simp only [List.flatMap_cons, List.flatMap_nil, List.append_nil]
      omega

theorem output_congr (h : d.placed = l.placed) : d.output late base = l.output late base := by
  rw [output, output, h]

theorem reaches_addLine (hn : late.Named) (he : late.Extends l'.labels)
    (hok : (l'.output late base).fault = none) (hr : l.Reaches late base)
    (h : l.addLine line raw = .ok l') : l'.Reaches late base := by
  obtain ⟨d, hd, hp⟩ := addLine_spec h
  obtain ⟨haddress, hplaced, -⟩ := define_spec hd
  by_cases htext : (peelLabels (withoutComment raw)).2 = []
  · rcases place_spec hp with ⟨-, rfl⟩ | ⟨hne, -⟩
    · rw [Reaches, haddress, output_congr hplaced]
      exact hr
    · exact absurd htext hne
  · exact (addsPiece_of_place hn he hok hr haddress hplaced hp htext).1

/-- The first pass keeps up with the pieces. -/
theorem reaches_addLines {raws : List (List Char)} (hn : late.Named)
    (he : late.Extends l'.labels) (hok : (l'.output late base).fault = none)
    (hr : l.Reaches late base) (h : l.addLines line raws = .ok l') : l'.Reaches late base := by
  induction raws generalizing l line with
  | nil =>
    cases h
    exact hr
  | cons raw raws ih =>
    obtain ⟨next, hnext, hrest⟩ := addLines_cons h
    have hgrows := grows_addLines hrest
    have hnext' := reaches_addLine hn (he.trans hgrows.labels) (hgrows.exists_pieces hok).1 hr hnext
    exact ih hnext' hrest

theorem reaches_start : (start base).Reaches late base :=
  (Int.add_zero base).symm

/-! ## Whole texts -/

section Source

variable {source : List Char}

theorem named_of_ofSource (h : ofSource source base = .ok l) : l.labels.Named :=
  (grows_addLines h).named_of_named fun _ hp => absurd hp List.not_mem_nil

theorem reaches_of_ofSource (h : ofSource source base = .ok l)
    (hok : (l.output l.labels base).fault = none) : l.Reaches l.labels base :=
  reaches_addLines (named_of_ofSource h) (Labels.Extends.refl _) hok reaches_start h

/-- The image of a text consists of the pieces of its layout. -/
theorem assemble_of_ofSource (h : ofSource source base = .ok l) :
    assemble source base = (l.output l.labels base).image := by
  rw [assemble, emission, h]
  rfl

theorem exists_output_of_assemble {image : Image} (h : assemble source base = .ok image) :
    ∃ l, ofSource source base = .ok l ∧ (l.output l.labels base).fault = none ∧
      (l.output l.labels base).bytes = image := by
  obtain ⟨hfault, himage⟩ := assemble_eq_ok_iff.1 h
  cases hl : ofSource source base with
  | error e =>
    rw [emission, hl] at hfault
    cases hfault
  | ok l =>
    rw [emission, hl] at hfault himage
    exact ⟨l, rfl, hfault, himage⟩

/-- Every label stands in front of a line. -/
theorem exists_line_of_lookup (h : ofSource source base = .ok l) {name : List Char}
    {address : Int} (hlookup : l.labels.lookup name = some address) :
    ∃ raw ∈ source.splitOn '\n', name ∈ (peelLabels (withoutComment raw)).1 := by
  obtain ⟨l₁, l₂, hlabels, -⟩ := List.lookup_eq_some_iff.1 hlookup
  have hmem : (name, address) ∈ l.labels := by
    rw [hlabels]
    exact List.mem_append_right _ List.mem_cons_self
  rcases (grows_addLines h).named _ hmem with hstart | hraw
  · exact absurd hstart List.not_mem_nil
  · exact hraw

/-- From the start on, there is a piece for every line with a statement. -/
theorem length_output {here : Layout} {before : List (List Char)}
    (h : (start base).addLines line before = .ok here)
    (hok : (here.output late base).fault = none) :
    (here.output late base).pieces.length = before.countP hasStatement := by
  have hlength : (here.output late base).pieces.length = here.placed.reverse.length :=
    length_pieces hok
  rw [hlength, List.length_reverse, (grows_addLines h).length]
  exact Nat.zero_add _

/-- Both passes agree at a line. -/
theorem agrees_at_line (h : ofSource source base = .ok l)
    (hok : (l.output l.labels base).fault = none) {before rest : List (List Char)}
    (hsplit : source.splitOn '\n' = before ++ raw :: rest) :
    let pieces := (l.output l.labels base).pieces
    let count := before.countP hasStatement
    let reached := base + ((pieces.take count).flatMap Piece.bytes).length
    ∃ here, (start base).addLines 1 before = .ok here ∧ here.address = reached ∧
      ∃ names text, peelLabels (withoutComment raw) = (names, text) ∧
        (∀ name ∈ names, l.labels.lookup name = some reached) ∧
        (text ≠ [] → ∃ d piece, here.define names = .ok d ∧ pieces[count]? = some piece ∧
          piece.address = reached ∧ piece.text = text ∧
          Contributes d.labels l.labels reached (Statement.ofText text) piece.bytes) := by
  have hnamed := named_of_ofSource h
  rw [ofSource, hsplit] at h
  obtain ⟨here, hbefore, hafter⟩ := addLines_append h
  obtain ⟨next, hnext, hrest⟩ := addLines_cons hafter
  have hhere := grows_addLines hafter
  have hgoes := grows_addLines hrest
  obtain ⟨hhereok, later, hlater⟩ := hhere.exists_pieces hok
  -- The pieces before the line are those of the layout that stands before it.
  have hcount := length_output hbefore hhereok
  have htake : (l.output l.labels base).pieces.take (before.countP hasStatement) =
      (here.output l.labels base).pieces := by
    rw [hlater, List.take_left' hcount]
  have hreached : here.Reaches l.labels base :=
    reaches_addLines hnamed hhere.labels hhereok reaches_start hbefore
  obtain ⟨d, hd, hp⟩ := addLine_spec hnext
  obtain ⟨haddress, hplaced, -, hnames, -⟩ := define_spec hd
  have hdext : l.labels.Extends d.labels := by
    rw [← labels_place hp]
    exact hgoes.labels
  dsimp only
  rw [htake, ← Emission.bytes, ← hreached]
  refine ⟨here, hbefore, rfl, _, _, rfl, fun name hname => ?_, fun htext => ?_⟩
  · exact hdext name _ (hnames name hname)
  · obtain ⟨hnextok, last, hlast⟩ := hgoes.exists_pieces hok
    obtain ⟨-, piece, hpiece⟩ :=
      addsPiece_of_place hnamed hgoes.labels hnextok hreached haddress hplaced hp htext
    refine ⟨d, piece, hd, ?_, hpiece.address_eq, hpiece.text_eq, hpiece.contributes⟩
    rw [hlast, hpiece.pieces_eq, List.append_assoc,
      List.getElem?_append_right (Nat.le_of_eq hcount), hcount, Nat.sub_self]
    rfl

end Source

end Layout

/-! ## Both passes -/

/-- Whenever a text is assembled, the image consists of the pieces of its lines with statements, in
their order, and both passes agree: before every line the first pass has reached the base together
with the length of the pieces before the line; this is the value of the labels of the line, and the
address of its piece in the second pass; and the targets of origins are the same in both.  A piece
holds the bytes of the encoding of an instruction, the bytes of operands, or zeros up to an
origin. -/
theorem passes_agree (source : List Char) (base : Int) (image : Image)
    (h : assemble source base = .ok image) :
    ∃ l : Layout, Layout.ofSource source base = .ok l ∧
      let pieces := (emission source base).pieces
      image = pieces.flatMap Piece.bytes ∧
      pieces.length = (source.splitOn '\n').countP hasStatement ∧
      l.address = base + image.length ∧
      (∀ name address, l.labels.lookup name = some address →
        ∃ raw ∈ source.splitOn '\n', name ∈ (peelLabels (withoutComment raw)).1) ∧
      ∀ before raw rest, source.splitOn '\n' = before ++ raw :: rest →
        let count := before.countP hasStatement
        let reached := base + ((pieces.take count).flatMap Piece.bytes).length
        ∃ here, (Layout.start base).addLines 1 before = .ok here ∧ here.address = reached ∧
          ∃ names text, peelLabels (withoutComment raw) = (names, text) ∧
            (∀ name ∈ names, l.labels.lookup name = some reached) ∧
            (text ≠ [] → ∃ d piece, here.define names = .ok d ∧ pieces[count]? = some piece ∧
              piece.address = reached ∧ piece.text = text ∧
              Contributes d.labels l.labels reached (Statement.ofText text) piece.bytes) := by
  obtain ⟨hfault, himage⟩ := assemble_eq_ok_iff.1 h
  cases hl : Layout.ofSource source base with
  | error e =>
    rw [emission, hl] at hfault
    cases hfault
  | ok l =>
    have hemission : emission source base = l.output l.labels base := by
      rw [emission, hl]
      rfl
    rw [hemission] at hfault himage ⊢
    have hreaches := Layout.reaches_of_ofSource hl hfault
    rw [Layout.Reaches, himage] at hreaches
    refine ⟨l, rfl, himage.symm, ?_, hreaches, fun name address hlookup => ?_, ?_⟩
    · exact Layout.length_output hl hfault
    · exact Layout.exists_line_of_lookup hl hlookup
    · intro before raw rest hsplit
      exact Layout.agrees_at_line hl hfault hsplit

/-- A text with two labels on one line, labels that stand before and behind their use, an empty
line, a comment, bytes, words and origins. -/
def mixedText : List Char :=
  "a: on: .org a\n\n JP end\nc: .db 1, -1 ; x\n.org 0x206\nend: .dw c".toList

/-- The image of the text, with the pieces of its lines, and the address that both passes reach. -/
theorem passes_agree_on_text :
    assemble mixedText 0x200 = .ok [0x12, 0x06, 1, 0xFF, 0, 0, 0x02, 0x02] ∧
    (emission mixedText 0x200).pieces.map Piece.bytes =
      [[], [0x12, 0x06], [1, 0xFF], [0, 0], [0x02, 0x02]] ∧
    ∃ l, Layout.ofSource mixedText 0x200 = .ok l ∧ l.address = 0x208 := by
  have himage : assemble mixedText 0x200 = .ok [0x12, 0x06, 1, 0xFF, 0, 0, 0x02, 0x02] := by
    decide +kernel
  have hpieces : (emission mixedText 0x200).pieces.map Piece.bytes =
      [[], [0x12, 0x06], [1, 0xFF], [0, 0], [0x02, 0x02]] := by decide +kernel
  obtain ⟨l, hl, -, -, haddress, -⟩ := passes_agree _ _ _ himage
  exact ⟨himage, hpieces, l, hl, haddress⟩

end ChipEight.Assembly
