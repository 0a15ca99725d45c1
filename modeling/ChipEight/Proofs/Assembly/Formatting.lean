/-
The formatting of a text does not change the program.

All that the assembler reads of a line are its items: its labels and its statement.  So texts with
the same items in the same order are assembled into the same image or fail for the same cause, on
whatever lines the items stand; and a fault is found on the line to which its item has moved.

Main definitions:
* `Item`: a label or a statement, `lineItems`: those of a line;
* `Layout.addItems`: the first pass, item by item;
* `Respelling`: lines that may stand in the place of others;
* `Edit`: a text with some of its lines respelled;
* `MarkedLine`: a line that is marked if it was inserted.

Main statements:
* `Layout.addLines_eq`: the first pass goes over the items of the lines;
* `assemble_alike`: texts with the same items on related lines have the same image, or fail for the
  same cause on related lines;
* `lineItems_label`: a label may stand on a line of its own;
* `formatting_does_not_matter`: what the edits of a text change, and what they do not.
-/
import ChipEight.Proofs.Assembly.Names
import ChipEight.Proofs.Assembly.Trail
import ChipEight.Proofs.Text.Lines

namespace ChipEight.Assembly

/-! ## Items -/

/-- What the assembler reads of a line. -/
inductive Item
  /-- A label. -/
  | label (name : List Char)
  /-- A statement. -/
  | statement (text : List Char)
  deriving DecidableEq, Repr

/-- The items of a text without a comment. -/
def textItems (text : List Char) : List Item :=
  let (names, text) := peelLabels text
  names.map .label ++ if text = [] then [] else [.statement text]

/-- The items of a line. -/
def lineItems (raw : List Char) : List Item :=
  textItems (withoutComment raw)

/-- The items of lines with the numbers of their lines, of which the first is `line`. -/
def numberedItems (line : Nat) : List (List Char) → List (Nat × Item)
  | [] => []
  | raw :: raws => (lineItems raw).map (Prod.mk line) ++ numberedItems (line + 1) raws

theorem map_snd_numberedItems (line : Nat) (raws : List (List Char)) :
    (numberedItems line raws).map Prod.snd = raws.flatMap lineItems := by
  induction raws generalizing line with
  | nil => rfl
  | cons raw raws ih =>
    rw [numberedItems, List.map_append, List.map_map, ih, List.flatMap_cons]
    congr 1
    exact List.map_id _

theorem numberedItems_append (line : Nat) (raws rest : List (List Char)) :
    numberedItems line (raws ++ rest) =
      numberedItems line raws ++ numberedItems (line + raws.length) rest := by
  induction raws generalizing line with
  | nil => rfl
  | cons raw raws ih =>
    rw [List.cons_append, numberedItems, ih, numberedItems, List.append_assoc, List.length_cons,
      Nat.add_comm raws.length, ← Nat.add_assoc]

namespace Layout

variable {l : Layout} {line : Nat}

/-- The layout with one more item. -/
def addItem (l : Layout) (line : Nat) : Item → Except Cause Layout
  | .label name => l.define [name]
  | .statement text => l.place line text

/-- The layout with more items, which have the numbers of their lines. -/
def addItems (l : Layout) : List (Nat × Item) → Except Error Layout
  | [] => .ok l
  | (line, item) :: rest =>
    match l.addItem line item with
    | .error e => .error ⟨line, e⟩
    | .ok l => l.addItems rest

theorem addItems_append (l : Layout) (items rest : List (Nat × Item)) :
    l.addItems (items ++ rest) = (l.addItems items).bind (·.addItems rest) := by
  induction items generalizing l with
  | nil => rfl
  | cons first items ih =>
    rw [List.cons_append, addItems, addItems]
    cases l.addItem first.1 first.2 with
    | error e => rfl
    | ok l => exact ih l

/-- Labels are defined one after the other. -/
theorem addItems_labels (l : Layout) (line : Nat) (names : List (List Char)) :
    l.addItems ((names.map Item.label).map (Prod.mk line)) =
      (l.define names).mapError (Error.mk line) := by
  induction names generalizing l with
  | nil => rfl
  | cons name names ih =>
    rw [List.map_cons, List.map_cons, addItems, addItem]
    simp only [define]
    cases (l.labels.lookup name).isSome with
    | true => rfl
    | false => exact ih _

/-- A line is added by adding its items. -/
theorem addItems_lineItems (l : Layout) (line : Nat) (raw : List Char) :
    l.addItems ((lineItems raw).map (Prod.mk line)) =
      (l.addLine line raw).mapError (Error.mk line) := by
  rw [lineItems, textItems, addLine]
  dsimp only
  rw [List.map_append, addItems_append, addItems_labels]
  cases l.define (peelLabels (withoutComment raw)).1 with
  | error e => rfl
  | ok d =>
    change d.addItems _ = (d.place line _).mapError _
    split
    · rename_i htext
      rw [place, if_pos htext]
      rfl
    · rw [List.map_singleton, addItems, addItem]
      cases d.place line (peelLabels (withoutComment raw)).2 with
      | error e => rfl
      | ok l' => rfl

/-- The first pass goes over the items of the lines. -/
theorem addLines_eq (l : Layout) (line : Nat) (raws : List (List Char)) :
    l.addLines line raws = l.addItems (numberedItems line raws) := by
  induction raws generalizing l line with
  | nil => rfl
  | cons raw raws ih =>
    rw [addLines, numberedItems, addItems_append, addItems_lineItems]
    cases l.addLine line raw with
    | error e => rfl
    | ok next => exact ih next (line + 1)

theorem ofSource_eq (source : List Char) (base : Int) :
    ofSource source base = (start base).addItems (numberedItems 1 (source.splitOn '\n')) :=
  addLines_eq _ _ _

end Layout

/-- Texts with the same items on the same lines are assembled alike in every respect. -/
theorem assemble_congr {s t : List Char} (base : Int)
    (h : numberedItems 1 (s.splitOn '\n') = numberedItems 1 (t.splitOn '\n')) :
    assemble s base = assemble t base := by
  rw [assemble, assemble, emission, emission, Layout.ofSource_eq, Layout.ofSource_eq, h]

/-! ## The same items on other lines -/

/-- Faults of the same cause on related lines. -/
inductive Error.Alike (R : Nat → Nat → Prop) : Error → Error → Prop
  /-- The cause is the same. -/
  | intro {n m : Nat} {cause : Cause} (h : R n m) : Alike R ⟨n, cause⟩ ⟨m, cause⟩

/-- Results that are alike, or faults that are. -/
inductive Alike (R : Nat → Nat → Prop) {α : Type} (same : α → α → Prop) :
    Except Error α → Except Error α → Prop
  /-- Both results are there. -/
  | ok {a b : α} (h : same a b) : Alike R same (.ok a) (.ok b)
  /-- Both have a fault. -/
  | error {e e' : Error} (h : e.Alike R e') : Alike R same (.error e) (.error e')

/-- Statements that are the same but for their lines, which are related. -/
inductive Placed.Alike (R : Nat → Nat → Prop) : Placed → Placed → Prop
  /-- The text, the statement and the address are the same. -/
  | intro {n m : Nat} {text : List Char} {statement : Statement} {address : Int} (h : R n m) :
    Alike R ⟨n, text, statement, address⟩ ⟨m, text, statement, address⟩

/-- Layouts that are the same but for the lines of the statements. -/
inductive Layout.Alike (R : Nat → Nat → Prop) : Layout → Layout → Prop
  /-- The address and the labels are the same. -/
  | intro {address : Int} {labels : Labels} {ps qs : List Placed}
    (h : List.Forall₂ (Placed.Alike R) ps qs) :
    Alike R ⟨address, labels, ps⟩ ⟨address, labels, qs⟩

/-- An item that stands on related lines. -/
def Matches (R : Nat → Nat → Prop) (a b : Nat × Item) : Prop :=
  R a.1 b.1 ∧ a.2 = b.2

section Alike

variable {R : Nat → Nat → Prop} {l m : Layout} {a b : Nat}

namespace Layout

/-- An item can be added to both of two layouts that are alike, or to none of them. -/
theorem addItem_alike (h : Alike R l m) (hline : R a b) (item : Item) :
    (∃ e, l.addItem a item = .error e ∧ m.addItem b item = .error e) ∨
      ∃ l' m', l.addItem a item = .ok l' ∧ m.addItem b item = .ok m' ∧ Alike R l' m' := by
  obtain @⟨address, labels, ps, qs, hplaced⟩ := h
  cases item with
  | label name =>
    simp only [addItem, define]
    cases (labels.lookup name).isSome with
    | true => exact .inl ⟨_, rfl, rfl⟩
    | false => exact .inr ⟨_, _, rfl, rfl, .intro hplaced⟩
  | statement text =>
    simp only [addItem, place]
    by_cases htext : text = []
    · simp only [if_pos htext]
      exact .inr ⟨_, _, rfl, rfl, .intro hplaced⟩
    · simp only [if_neg htext]
      -- What address comes next does not depend on the statements before.
      have hafter : addressAfter ⟨address, labels, qs⟩ (Statement.ofText text) =
          addressAfter ⟨address, labels, ps⟩ (Statement.ofText text) := by
        cases Statement.ofText text <;> rfl
      rw [hafter]
      cases addressAfter ⟨address, labels, ps⟩ (Statement.ofText text) with
      | error e => exact .inl ⟨e, rfl, rfl⟩
      | ok next => exact .inr ⟨_, _, rfl, rfl, .intro (.cons (.intro hline) hplaced)⟩

/-- Matching items lead from layouts that are alike to layouts that are alike. -/
theorem addItems_alike {items items' : List (Nat × Item)} (h : Alike R l m)
    (hitems : List.Forall₂ (Matches R) items items') :
    Assembly.Alike R (Alike R) (l.addItems items) (m.addItems items') := by
  induction hitems generalizing l m with
  | nil => exact .ok h
  | @cons first first' items items' hfirst _ ih =>
    obtain ⟨hline, hitem⟩ := hfirst
    rw [addItems, addItems, ← hitem]
    rcases addItem_alike h hline first.2 with ⟨e, hl, hm⟩ | ⟨l', m', hl, hm, hnext⟩
    · rw [hl, hm]
      exact .error (.intro hline)
    · rw [hl, hm]
      exact ih hnext

end Layout

/-- Statements that are alike have the same pieces up to faults that are alike. -/
theorem emit_alike {labels : Labels} {address : Int} {ps qs : List Placed}
    (h : List.Forall₂ (Placed.Alike R) ps qs) :
    (emit labels address ps).pieces = (emit labels address qs).pieces ∧
      Option.Rel (Error.Alike R) (emit labels address ps).fault (emit labels address qs).fault := by
  induction h generalizing address with
  | nil => exact ⟨rfl, .none⟩
  | @cons p q ps qs hfirst _ ih =>
    obtain @⟨n, k, text, statement, noted, hline⟩ := hfirst
    rw [emit, emit, Placed.emit, Placed.emit]
    dsimp only
    cases statement.emit labels address with
    | error e => exact ⟨rfl, .some (.intro hline)⟩
    | ok bytes =>
      obtain ⟨hpieces, hfault⟩ := @ih (address + bytes.length)
      exact ⟨congrArg (List.cons _) hpieces, hfault⟩

theorem Emission.image_alike {e f : Emission} (hpieces : e.pieces = f.pieces)
    (hfault : Option.Rel (Error.Alike R) e.fault f.fault) : Alike R (· = ·) e.image f.image := by
  obtain ⟨pieces, fault⟩ := e
  obtain ⟨pieces', fault'⟩ := f
  cases hpieces
  cases hfault with
  | none => exact .ok rfl
  | some he => exact .error he

/-- Texts with the same items on related lines have the same image, or faults of the same cause on
related lines. -/
theorem assemble_alike {s t : List Char} (base : Int)
    (h : List.Forall₂ (Matches R) (numberedItems 1 (s.splitOn '\n'))
      (numberedItems 1 (t.splitOn '\n'))) :
    Alike R (· = ·) (assemble s base) (assemble t base) := by
  have hstart : Layout.Alike R (Layout.start base) (Layout.start base) := .intro .nil
  have hlayouts := Layout.addItems_alike hstart h
  rw [← Layout.ofSource_eq, ← Layout.ofSource_eq] at hlayouts
  rw [assemble, assemble, emission, emission]
  generalize Layout.ofSource s base = a, Layout.ofSource t base = b at hlayouts
  cases hlayouts with
  | error he => exact .error he
  | @ok l m hlm =>
    obtain @⟨address, labels, ps, qs, hplaced⟩ := hlm
    obtain ⟨hpieces, hfault⟩ := emit_alike (List.forall₂_reverse_iff.2 hplaced)
    exact Emission.image_alike hpieces hfault

end Alike

/-- Texts with the same items in the same order have the same image, or faults of the same
cause. -/
theorem assemble_of_items {s t : List Char} (base : Int)
    (h : (s.splitOn '\n').flatMap lineItems = (t.splitOn '\n').flatMap lineItems) :
    (assemble s base).mapError Error.cause = (assemble t base).mapError Error.cause := by
  rw [← map_snd_numberedItems 1, ← map_snd_numberedItems 1, ← List.forall₂_eq_eq_eq,
    List.forall₂_map_left_iff, List.forall₂_map_right_iff] at h
  have halike := assemble_alike (R := fun _ _ => True) base (h.imp fun _ _ hab => ⟨trivial, hab⟩)
  generalize assemble s base = a, assemble t base = b at halike
  cases halike with
  | ok hab => rw [hab]
  | error he =>
    cases he
    rfl

/-! ## Comments, blanks and labels -/

section Lines

variable {raw blanks name : List Char}

theorem withoutComment_append_comment (raw text : List Char) :
    withoutComment (raw ++ ';' :: text) = withoutComment raw := by
  rw [withoutComment, List.takeWhile_append, withoutComment]
  split
  · rename_i hraw
    rw [List.takeWhile_cons_of_neg (by decide), List.append_nil]
    exact congrArg Text.trim ((List.takeWhile_prefix _).eq_of_length hraw).symm
  · rfl

theorem ne_semicolon_of_isBlank {c : Char} (h : Text.isBlank c) : c ≠ ';' := by
  rintro rfl
  revert h
  decide

theorem withoutComment_blanks_append (h : ∀ c ∈ blanks, Text.isBlank c) (raw : List Char) :
    withoutComment (blanks ++ raw) = withoutComment raw := by
  have hsemicolon : ∀ c ∈ blanks, decide (c ≠ ';') = true :=
    fun c hc => decide_eq_true (ne_semicolon_of_isBlank (h c hc))
  rw [withoutComment, List.takeWhile_append_of_pos hsemicolon, Text.trim_blanks_append h,
    withoutComment]

theorem withoutComment_append_blanks (h : ∀ c ∈ blanks, Text.isBlank c) (raw : List Char) :
    withoutComment (raw ++ blanks) = withoutComment raw := by
  have hsemicolon : ∀ c ∈ blanks, decide (c ≠ ';') = true :=
    fun c hc => decide_eq_true (ne_semicolon_of_isBlank (h c hc))
  rw [withoutComment, List.takeWhile_append, withoutComment]
  split
  · rename_i hraw
    -- The line has no comment, so that the blanks stand at its end.
    rw [List.takeWhile_eq_self_iff.2 hsemicolon, Text.trim_append_blanks h,
      (List.takeWhile_prefix _).eq_of_length hraw]
  · rfl

/-- The line has nothing in front of its comment. -/
def IsIdle (raw : List Char) : Prop :=
  ∀ c ∈ raw.takeWhile (· ≠ ';'), Text.isBlank c

instance (raw : List Char) : Decidable (IsIdle raw) :=
  inferInstanceAs (Decidable (∀ c ∈ _, _))

theorem lineItems_of_isIdle (h : IsIdle raw) : lineItems raw = [] := by
  rw [lineItems, withoutComment, Text.trim_of_blank h, textItems, peelLabels_nil]
  rfl

theorem peelLabels_label (hname : isLabelName name) (rest : List Char) :
    peelLabels (name ++ ':' :: rest) =
      (name :: (peelLabels (Text.trim rest)).1, (peelLabels (Text.trim rest)).2) := by
  have hsplit := splitLabel?_eq_some_iff.2 ⟨hname, rest, rfl, rfl⟩
  rw [peelLabels]
  split
  · rename_i hnone
    rw [hsplit] at hnone
    cases hnone
  · rename_i first after hsome
    rw [hsplit] at hsome
    cases hsome
    rfl

/-- A label is the first item of its line. -/
theorem textItems_label (hname : isLabelName name) (rest : List Char) :
    textItems (name ++ ':' :: rest) = .label name :: textItems (Text.trim rest) := by
  rw [textItems, peelLabels_label hname]
  rfl

/-- A label may stand on a line of its own. -/
theorem lineItems_label (hname : isLabelName name) (h : ∀ c ∈ blanks, Text.isBlank c)
    (rest : List Char) :
    lineItems (blanks ++ name ++ ':' :: rest) = .label name :: lineItems rest := by
  have hplain := plainWord_of_isLabelName hname
  have hsemicolon : ∀ c ∈ name, decide (c ≠ ';') = true :=
    fun c hc => decide_eq_true (hplain.plain c hc).2.2.1
  rw [lineItems, List.append_assoc, withoutComment_blanks_append h, withoutComment,
    List.takeWhile_append_of_pos hsemicolon, List.takeWhile_cons_of_pos (by decide), Text.trim,
    Text.trimStart_of_plainWord hplain, Text.trimEnd_append_cons (by decide), textItems_label hname,
    Text.trim_trimEnd, lineItems, withoutComment]

end Lines

/-! ## Edits -/

/-- Lines that may stand in the place of others. -/
inductive Respelling : List (List Char) → List (List Char) → Prop
  /-- A comment is put behind a line. -/
  | comment (raw : List Char) {text : List Char} (h : '\n' ∉ text) :
    Respelling [raw] [raw ++ ';' :: text]
  /-- Blanks are put before a line. -/
  | blanksBefore (raw : List Char) {blanks : List Char} (h : Text.Blanks blanks) :
    Respelling [raw] [blanks ++ raw]
  /-- Blanks are put behind a line. -/
  | blanksBehind (raw : List Char) {blanks : List Char} (h : Text.Blanks blanks) :
    Respelling [raw] [raw ++ blanks]
  /-- A line is put in that is blank or holds nothing but a comment. -/
  | idle {raw : List Char} (h : IsIdle raw) (hline : '\n' ∉ raw) : Respelling [] [raw]
  /-- A label at the beginning of a line is put on a line of its own. -/
  | ownLine {blanks name : List Char} (h : ∀ c ∈ blanks, Text.isBlank c) (hname : isLabelName name)
      (rest : List Char) :
    Respelling [blanks ++ name ++ ':' :: rest] [blanks ++ name ++ [':'], rest]

/-- One text is another with some of its lines respelled. -/
inductive Edit (source : List Char) : List Char → Prop
  /-- The lines `old` are respelled as `new`. -/
  | intro {before old new after : List (List Char)}
      (lines : source.splitOn '\n' = before ++ old ++ after) (h : Respelling old new) :
    Edit source (Text.unlines (before ++ new ++ after))

section Edits

variable {source source' : List Char} {old new : List (List Char)}

theorem Respelling.items_eq (h : Respelling old new) :
    new.flatMap lineItems = old.flatMap lineItems := by
  cases h with
  | comment raw h =>
    rw [List.flatMap_singleton, List.flatMap_singleton, lineItems, withoutComment_append_comment,
      lineItems]
  | blanksBefore raw h =>
    rw [List.flatMap_singleton, List.flatMap_singleton, lineItems,
      withoutComment_blanks_append h.all_isBlank, lineItems]
  | blanksBehind raw h =>
    rw [List.flatMap_singleton, List.flatMap_singleton, lineItems,
      withoutComment_append_blanks h.all_isBlank, lineItems]
  | idle h =>
    rw [List.flatMap_singleton, lineItems_of_isIdle h, List.flatMap_nil]
  | ownLine h hname rest =>
    rw [List.flatMap_singleton, lineItems_label hname h, List.flatMap_cons, List.flatMap_singleton,
      lineItems_label hname h, lineItems_of_isIdle fun c hc => absurd hc List.not_mem_nil]
    rfl

theorem Respelling.new_ne_nil (h : Respelling old new) : new ≠ [] := by
  cases h <;> exact List.cons_ne_nil _ _

/-- Lines are respelled as lines. -/
theorem Respelling.newline_not_mem (h : Respelling old new) (hold : ∀ raw ∈ old, '\n' ∉ raw) :
    ∀ raw ∈ new, '\n' ∉ raw := by
  cases h with
  | comment raw h =>
    have hraw := hold raw List.mem_cons_self
    simpa [hraw] using h
  | blanksBefore raw h =>
    have hraw := hold raw List.mem_cons_self
    simpa [hraw] using h.newline_not_mem
  | blanksBehind raw h =>
    have hraw := hold raw List.mem_cons_self
    simpa [hraw] using h.newline_not_mem
  | idle h hline => simpa using hline
  | ownLine h hname rest =>
    have hraw := hold _ List.mem_cons_self
    simpa [and_assoc] using hraw

/-- The lines of a text after some were respelled. -/
theorem Respelling.splitOn_unlines {before after : List (List Char)} (h : Respelling old new)
    (lines : source.splitOn '\n' = before ++ old ++ after) :
    (Text.unlines (before ++ new ++ after)).splitOn '\n' = before ++ new ++ after := by
  have hsource : ∀ raw ∈ before ++ old ++ after, '\n' ∉ raw := by
    intro raw hraw
    exact Text.newline_not_mem_of_mem_splitOn (lines ▸ hraw)
  refine Text.splitOn_unlines (by simp [h.new_ne_nil]) fun raw hraw => ?_
  simp only [List.mem_append] at hsource hraw
  rcases hraw with (hraw | hraw) | hraw
  · exact hsource raw (.inl (.inl hraw))
  · exact h.newline_not_mem (fun r hr => hsource r (.inl (.inr hr))) raw hraw
  · exact hsource raw (.inr hraw)

/-- An edit changes neither the image nor the cause of the fault. -/
theorem Edit.assemble_eq (h : Edit source source') (base : Int) :
    (assemble source' base).mapError Error.cause = (assemble source base).mapError Error.cause := by
  obtain @⟨before, old, new, after, lines, hspelling⟩ := h
  refine assemble_of_items base ?_
  rw [hspelling.splitOn_unlines lines, lines]
  simp only [List.flatMap_append, hspelling.items_eq]

/-- Neither do edits one after the other. -/
theorem assemble_of_edits (h : Relation.ReflTransGen Edit source source') (base : Int) :
    (assemble source' base).mapError Error.cause = (assemble source base).mapError Error.cause := by
  induction h with
  | refl => rfl
  | tail _ hedit ih => rw [hedit.assemble_eq, ih]

/-- A line that is respelled as one line leaves the whole result as it is. -/
theorem assemble_of_respelled_line {before after : List (List Char)} {raw raw' : List Char}
    (lines : source.splitOn '\n' = before ++ raw :: after) (h : Respelling [raw] [raw'])
    (base : Int) :
    assemble (Text.unlines (before ++ raw' :: after)) base = assemble source base := by
  have hitems := h.items_eq
  have hraw : source.splitOn '\n' = before ++ [raw] ++ after := by simpa using lines
  have hlines := h.splitOn_unlines hraw
  simp only [List.flatMap_singleton, List.append_assoc, List.singleton_append] at hitems hlines
  refine assemble_congr base ?_
  rw [hlines, lines, numberedItems_append, numberedItems_append, numberedItems, numberedItems,
    hitems]

end Edits

/-! ## Inserted lines -/

/-- A line of a text, with a mark that tells whether it was inserted. -/
structure MarkedLine where
  /-- The line. -/
  raw : List Char
  /-- Whether it was inserted. -/
  isInserted : Bool

namespace MarkedLine

/-- The lines as they were before any were inserted. -/
def kept (lines : List MarkedLine) : List (List Char) :=
  (lines.filter (!·.isInserted)).map raw

/-- The line `n` of the text as it was before is the line `m` now. -/
def Moves (lines : List MarkedLine) (n m : Nat) : Prop :=
  ∃ above line below, lines = above ++ line :: below ∧ line.isInserted = false ∧
    n = (kept above).length + 1 ∧ m = n + above.countP isInserted

theorem kept_nil : kept [] = [] :=
  rfl

theorem kept_append (above rest : List MarkedLine) :
    kept (above ++ rest) = kept above ++ kept rest := by
  rw [kept, List.filter_append, List.map_append, kept, kept]

theorem kept_cons_of_inserted {line : MarkedLine} (h : line.isInserted = true)
    (rest : List MarkedLine) : kept (line :: rest) = kept rest := by
  rw [kept, List.filter_cons_of_neg (by rw [h]; decide), kept]

theorem kept_cons_of_kept {line : MarkedLine} (h : line.isInserted = false)
    (rest : List MarkedLine) : kept (line :: rest) = line.raw :: kept rest := by
  rw [kept, List.filter_cons_of_pos (by rw [h]; rfl), List.map_cons, kept]

theorem length_eq (lines : List MarkedLine) :
    lines.length = (kept lines).length + lines.countP isInserted := by
  rw [kept, List.length_map, ← List.countP_eq_length_filter, Nat.add_comm]
  simpa using List.length_eq_countP_add_countP isInserted

/-- The items of the lines that were kept stand where these have moved to. -/
theorem matches_numberedItems {lines above rest : List MarkedLine} (hlines : lines = above ++ rest)
    (hidle : ∀ line ∈ lines, line.isInserted → IsIdle line.raw) :
    List.Forall₂ (Matches (Moves lines)) (numberedItems ((kept above).length + 1) (kept rest))
      (numberedItems (above.length + 1) (rest.map raw)) := by
  induction rest generalizing above with
  | nil => exact .nil
  | cons line rest ih =>
    have hmore : lines = (above ++ [line]) ++ rest := by
      rw [hlines, List.append_assoc]
      rfl
    have hrest := ih hmore
    rw [List.length_append, List.length_singleton, kept_append] at hrest
    rw [List.map_cons, numberedItems]
    cases hmark : line.isInserted with
    | true =>
      have hline := hidle line (by rw [hlines]; simp) hmark
      rw [kept_cons_of_inserted hmark, kept_nil, List.append_nil] at hrest
      rw [lineItems_of_isIdle hline, kept_cons_of_inserted hmark]
      exact hrest
    | false =>
      have hmove : Moves lines ((kept above).length + 1) (above.length + 1) :=
        ⟨above, line, rest, hlines, hmark, rfl, by rw [length_eq above]; omega⟩
      have hitems : List.Forall₂ (Matches (Moves lines))
          ((lineItems line.raw).map (Prod.mk ((kept above).length + 1)))
          ((lineItems line.raw).map (Prod.mk (above.length + 1))) := by
        rw [List.forall₂_map_left_iff, List.forall₂_map_right_iff]
        exact List.forall₂_same.2 fun item _ => ⟨hmove, rfl⟩
      rw [kept_cons_of_kept hmark, List.length_append] at hrest
      rw [kept_cons_of_kept hmark, numberedItems]
      exact List.rel_append hitems hrest

end MarkedLine

/-- When lines are put in that are blank or hold nothing but a comment, the image stays the same, and
a fault moves with its line. -/
theorem assemble_of_inserted {source : List Char} {lines : List MarkedLine}
    (hkept : source.splitOn '\n' = MarkedLine.kept lines)
    (hidle : ∀ line ∈ lines, line.isInserted → IsIdle line.raw ∧ '\n' ∉ line.raw) (base : Int) :
    Alike (MarkedLine.Moves lines) (· = ·) (assemble source base)
      (assemble (Text.unlines (lines.map MarkedLine.raw)) base) := by
  have hne : lines.map MarkedLine.raw ≠ [] := by
    rintro hnil
    rw [List.map_eq_nil_iff.1 hnil] at hkept
    exact List.splitOn_ne_nil _ _ hkept
  have hnewline : ∀ raw ∈ lines.map MarkedLine.raw, '\n' ∉ raw := by
    intro raw hraw
    obtain ⟨line, hline, rfl⟩ := List.mem_map.1 hraw
    cases hmark : line.isInserted with
    | true => exact (hidle line hline hmark).2
    | false =>
      refine Text.newline_not_mem_of_mem_splitOn (s := source) ?_
      rw [hkept, MarkedLine.kept]
      exact List.mem_map_of_mem (List.mem_filter.2 ⟨hline, by rw [hmark]; rfl⟩)
  refine assemble_alike base ?_
  rw [hkept, Text.splitOn_unlines hne hnewline]
  have hlines : lines = [] ++ lines := rfl
  exact MarkedLine.matches_numberedItems hlines fun line hline hmark =>
    (hidle line hline hmark).1

/-! ## The formatting of a text -/

/-- The formatting of a text does not matter.  Comments and blanks at the ends of a line leave the
result of the assembler as it is.  So do these, lines that are blank or hold nothing but a comment,
and labels that are put on lines of their own, in any number and order, up to the line of a fault.
Where lines were put in, the line of a fault is the old one and the number of lines that were put in
above it. -/
theorem formatting_does_not_matter (source : List Char) (base : Int) :
    (∀ before raw raw' after, source.splitOn '\n' = before ++ raw :: after →
      Respelling [raw] [raw'] →
      assemble (Text.unlines (before ++ raw' :: after)) base = assemble source base) ∧
    (∀ source', Relation.ReflTransGen Edit source source' →
      (assemble source' base).mapError Error.cause =
        (assemble source base).mapError Error.cause) ∧
    ∀ lines : List MarkedLine, source.splitOn '\n' = MarkedLine.kept lines →
      (∀ line ∈ lines, line.isInserted → IsIdle line.raw ∧ '\n' ∉ line.raw) →
      let source' := Text.unlines (lines.map MarkedLine.raw)
      (∀ image, assemble source base = .ok image → assemble source' base = .ok image) ∧
      ∀ e, assemble source base = .error e →
        ∃ above line below, lines = above ++ line :: below ∧ line.isInserted = false ∧
          e.line = (MarkedLine.kept above).length + 1 ∧
          assemble source' base =
            .error ⟨e.line + above.countP MarkedLine.isInserted, e.cause⟩ := by
  refine ⟨fun before raw raw' after lines h => assemble_of_respelled_line lines h base,
    fun source' h => assemble_of_edits h base, fun lines hkept hidle => ?_⟩
  have halike := assemble_of_inserted hkept hidle base
  intro source'
  generalize assemble source base = a, hb : assemble source' base = b at halike ⊢
  cases halike with
  | ok h =>
    subst h
    exact ⟨fun image himage => himage, nofun⟩
  | error h =>
    obtain @⟨n, m, cause, above, line, below, hlines, hmark, hn, hm⟩ := h
    refine ⟨nofun, fun e he => ?_⟩
    cases he
    refine ⟨above, line, below, hlines, hmark, by rw [hn]; rfl, ?_⟩
    rw [hm]
    rfl

end ChipEight.Assembly
