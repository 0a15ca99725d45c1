/-
The listing describes the image.

The listing has a row for each statement but the origins.  A row begins where the bytes of its
statement stand in the image; the rows come in the order of the lines and do not overlap, and what
lies between them are the zeros up to a new origin.

Main definitions:
* `Row`: the place of the bytes of a statement in the image, with the text of the statement;
* `Row.line`: the line that shows a row, whose bytes are taken from the image;
* `Printing.assemble`: the assembler that prints its listing while it goes, if it is asked to.

Main statements:
* `Printing.pass_eq`: printing does not change the image;
* `texts_of_ofSource`: the statements of a text are what is left of its lines;
* `pieces_eq_map_rows`: the pieces stand in the image at their rows;
* `listing_describes_image`: the rows of a listing and what lies between them.
-/
import ChipEight.Proofs.Assembly.Trail
import ChipEight.Proofs.Numerals
import ChipEight.Proofs.Text.Lines

namespace ChipEight.Assembly

/-! ## Printing -/

namespace Printing

/-- The second pass from an address on, where `code` and `printed` are what it has put so far.  If
the listing is asked for, a line is printed for each statement but the origins. -/
def pass (listed : Bool) (labels : Labels) (address : Int) (code : Image)
    (printed : List (List Char)) : List Placed → Except Error Image × List (List Char)
  | [] => (.ok code, printed)
  | p :: ps =>
    match p.emit labels address with
    | .error e => (.error e, printed)
    | .ok piece =>
      let printed := if listed && !piece.isPadding then printed ++ [piece.listing] else printed
      pass listed labels (address + piece.bytes.length) (code ++ piece.bytes) printed ps

/-- The assembler that prints its listing while it goes, if it is asked to. -/
def assemble (listed : Bool) (source : List Char) (base : Int) :
    Except Error Image × List (List Char) :=
  match Layout.ofSource source base with
  | .error e => (.error e, [])
  | .ok l => pass listed l.labels base [] [] l.placed.reverse

/-- Printing does not change what the second pass puts. -/
theorem pass_eq (listed : Bool) (labels : Labels) (address : Int) (code : Image)
    (printed : List (List Char)) (ps : List Placed) :
    pass listed labels address code printed ps =
      ((emit labels address ps).image.map (code ++ ·),
        if listed then printed ++ (emit labels address ps).listing else printed) := by
  induction ps generalizing address code printed with
  | nil => cases listed <;> simp [pass, emit, Emission.image, Emission.bytes, Emission.listing,
      Except.map]
  | cons p ps ih =>
    rw [pass, emit]
    cases p.emit labels address with
    | error e => cases listed <;> simp [Emission.image, Emission.listing, Except.map]
    | ok piece =>
      dsimp only
      rw [ih]
      refine Prod.ext ?_ ?_
      · -- The bytes of the first statement come before those of the others.
        simp only [Emission.image, Emission.bytes, List.flatMap_cons]
        cases (emit labels (address + piece.bytes.length) ps).fault with
        | some e => rfl
        | none => exact congrArg Except.ok (List.append_assoc _ _ _)
      · cases listed <;> cases hp : piece.isPadding <;> simp [Emission.listing, hp]

/-- The assembler gives the same image whether it prints its listing or not. -/
theorem assemble_eq (listed : Bool) (source : List Char) (base : Int) :
    assemble listed source base =
      (Assembly.assemble source base, if listed then (emission source base).listing else []) := by
  rw [assemble, Assembly.assemble, emission]
  cases Layout.ofSource source base with
  | error e => cases listed <;> rfl
  | ok l =>
    dsimp only
    rw [pass_eq]
    cases (emit l.labels base l.placed.reverse).image <;> rfl

end Printing

/-! ## The texts of statements -/

/-- What is left of a line without its labels and its comment, if anything is. -/
def statementText? (raw : List Char) : Option (List Char) :=
  let text := (peelLabels (withoutComment raw)).2
  if text = [] then none else some text

namespace Layout

variable {l l' : Layout} {line : Nat} {raw : List Char}

theorem texts_of_addLine (h : l.addLine line raw = .ok l') :
    l'.placed.reverse.map Placed.text =
      l.placed.reverse.map Placed.text ++ (statementText? raw).toList := by
  obtain ⟨d, hd, hp⟩ := addLine_spec h
  obtain ⟨-, hplaced, -⟩ := define_spec hd
  rcases place_spec hp with ⟨htext, rfl⟩ | ⟨htext, a, -, rfl⟩
  · rw [hplaced, statementText?, if_pos htext, Option.toList_none, List.append_nil]
  · rw [statementText?, if_neg htext, Option.toList_some, List.reverse_cons, List.map_append,
      hplaced, List.map_singleton]

theorem texts_of_addLines {raws : List (List Char)} (h : l.addLines line raws = .ok l') :
    l'.placed.reverse.map Placed.text =
      l.placed.reverse.map Placed.text ++ raws.filterMap statementText? := by
  induction raws generalizing l line with
  | nil =>
    cases h
    rw [List.filterMap_nil, List.append_nil]
  | cons raw raws ih =>
    obtain ⟨next, hnext, hrest⟩ := addLines_cons h
    rw [ih hrest, texts_of_addLine hnext, List.append_assoc]
    congr 1
    rw [List.filterMap_cons]
    cases statementText? raw <;> rfl

/-- The statements of a text are what is left of its lines, in their order. -/
theorem texts_of_ofSource {source : List Char} {base : Int} (h : ofSource source base = .ok l) :
    l.placed.reverse.map Placed.text = (source.splitOn '\n').filterMap statementText? :=
  texts_of_addLines h

theorem statement_of_ofSource {source : List Char} {base : Int} (h : ofSource source base = .ok l) :
    ∀ p ∈ l.placed.reverse, p.statement = .ofText p.text := by
  intro p hp
  obtain ⟨index, raw, -, hstands⟩ := exists_line_of_mem_placed h (List.mem_reverse.1 hp)
  exact hstands.statement_eq

end Layout

/-! ## Rows -/

/-- The place of the bytes of a statement in the image, with the text of the statement. -/
structure Row where
  /-- Where the bytes begin. -/
  start : Nat
  /-- How many bytes there are. -/
  size : Nat
  /-- The text. -/
  text : List Char
  deriving DecidableEq, Repr

namespace Row

/-- Where the bytes end. -/
def stop (r : Row) : Nat :=
  r.start + r.size

/-- The bytes of the row in an image. -/
def bytes (image : Image) (r : Row) : Image :=
  (image.drop r.start).take r.size

/-- Whether the row belongs to an origin. -/
def isOrigin (r : Row) : Bool :=
  (Statement.ofText r.text).isOrigin

/-- The bytes of the row as far as they are shown, and a mark if there are more than eight. -/
def shown (image : Image) (r : Row) : List Char :=
  [' '].intercalate (((image.drop r.start).take (min 8 r.size)).map fun b => Hex.capital 2 b.toNat) ++
    if 8 < r.size then " ...".toList else []

/-- The line that shows the row of an image that begins at an address. -/
def line (base : Int) (image : Image) (r : Row) : List Char :=
  "  ".toList ++ Hex.capital 4 (base + r.start) ++ "  ".toList ++
    (r.shown image).rightpad 26 ' ' ++ " ".toList ++ r.text

/-- The piece of the row of an image that begins at an address. -/
def piece (base : Int) (image : Image) (r : Row) : Piece :=
  ⟨base + r.start, r.bytes image, r.text, r.isOrigin⟩

/-- A row that lies in the image is shown by the line of its piece. -/
theorem listing_piece {base : Int} {image : Image} {r : Row} (h : r.stop ≤ image.length) :
    (r.piece base image).listing = r.line base image := by
  have hlength : (r.bytes image).length = r.size := by
    rw [stop] at h
    rw [bytes, List.length_take, List.length_drop]
    omega
  have hshown : shownBytes (r.bytes image) = r.shown image := by
    rw [shownBytes, hlength, shown, bytes, List.take_take]
    rfl
  rw [piece, Piece.listing]
  dsimp only
  rw [hshown, line, List.rightpad]
  simp

end Row

/-- The rows of pieces whose bytes stand one behind the other from a place on. -/
def rows (start : Nat) : List Piece → List Row
  | [] => []
  | p :: ps => ⟨start, p.bytes.length, p.text⟩ :: rows (start + p.bytes.length) ps

section Rows

variable {pieces : List Piece} {start : Nat} {r : Row}

/-- The rows of pieces lie where the bytes of the pieces are put. -/
theorem bounds_of_mem_rows (h : r ∈ rows start pieces) :
    start ≤ r.start ∧ r.stop ≤ start + (pieces.flatMap Piece.bytes).length := by
  induction pieces generalizing start with
  | nil => cases h
  | cons p ps ih =>
    rw [List.flatMap_cons, List.length_append]
    rcases List.mem_cons.1 h with rfl | h
    · rw [Row.stop]
      dsimp only
      omega
    · have := ih h
      omega

/-- The rows of pieces come one behind the other. -/
theorem pairwise_rows (start : Nat) (pieces : List Piece) :
    (rows start pieces).Pairwise fun r s => r.stop ≤ s.start := by
  induction pieces generalizing start with
  | nil => exact .nil
  | cons p ps ih => exact .cons (fun r hr => (bounds_of_mem_rows hr).1) (ih _)

/-- There is a row for every byte of the pieces. -/
theorem exists_row {k : Nat} (hstart : start ≤ k)
    (hk : k < start + (pieces.flatMap Piece.bytes).length) :
    ∃ r ∈ rows start pieces, r.start ≤ k ∧ k < r.stop := by
  induction pieces generalizing start with
  | nil => exact absurd hk (Nat.not_lt.2 hstart)
  | cons p ps ih =>
    rw [List.flatMap_cons, List.length_append] at hk
    by_cases hp : k < start + p.bytes.length
    · exact ⟨_, List.mem_cons_self, hstart, hp⟩
    · obtain ⟨r, hr, hin⟩ := ih (Nat.le_of_not_lt hp) (by omega)
      exact ⟨r, List.mem_cons_of_mem _ hr, hin⟩

theorem map_text_rows (start : Nat) (pieces : List Piece) :
    (rows start pieces).map Row.text = pieces.map Piece.text := by
  induction pieces generalizing start with
  | nil => rfl
  | cons p ps ih => rw [rows, List.map_cons, List.map_cons, ih]

end Rows

/-! ## The pieces of statements -/

section Emit

variable {labels : Labels} {base : Int} {start : Nat} {ps : List Placed}

theorem Placed.isPadding_of_emit {address : Int} {p : Placed} {piece : Piece}
    (h : p.emit labels address = .ok piece) : piece.isPadding = p.statement.isOrigin := by
  rw [emit] at h
  split at h
  · cases h
  · cases h
    rfl

/-- The texts of the pieces are those of the statements. -/
theorem map_text_pieces {address : Int} (h : (emit labels address ps).fault = none) :
    (emit labels address ps).pieces.map Piece.text = ps.map Placed.text := by
  induction ps generalizing address with
  | nil => rfl
  | cons p ps ih =>
    rw [emit] at h ⊢
    cases hp : p.emit labels address with
    | error e =>
      rw [hp] at h
      cases h
    | ok piece =>
      rw [hp] at h
      rw [List.map_cons, List.map_cons, ← ih h, ← (Placed.emit_eq_ok hp).2.2]

/-- A piece holds what its statement stands for at the address of the piece. -/
theorem emit_of_mem_pieces {address : Int} {piece : Piece}
    (hps : ∀ p ∈ ps, p.statement = .ofText p.text)
    (h : piece ∈ (emit labels address ps).pieces) :
    (Statement.ofText piece.text).emit labels piece.address = .ok piece.bytes := by
  induction ps generalizing address with
  | nil => cases h
  | cons p ps ih =>
    rw [emit] at h
    cases hp : p.emit labels address with
    | error e =>
      rw [hp] at h
      cases h
    | ok first =>
      rw [hp] at h
      rcases List.mem_cons.1 h with rfl | h
      · obtain ⟨hbytes, haddress, htext⟩ := Placed.emit_eq_ok hp
        rw [htext, haddress, ← hps p List.mem_cons_self]
        exact hbytes
      · exact ih (fun q hq => hps q (List.mem_cons_of_mem _ hq)) h

/-- The pieces stand in the image at their rows. -/
theorem pieces_eq_map_rows {image : Image} (hps : ∀ p ∈ ps, p.statement = .ofText p.text)
    (himage : image.drop start = (emit labels (base + start) ps).bytes) :
    (emit labels (base + start) ps).pieces =
      (rows start (emit labels (base + start) ps).pieces).map (Row.piece base image) := by
  induction ps generalizing start with
  | nil => rfl
  | cons p ps ih =>
    rw [emit] at himage ⊢
    cases hp : p.emit labels (base + start) with
    | error e => rfl
    | ok piece =>
      obtain ⟨-, haddress, htext⟩ := Placed.emit_eq_ok hp
      have hpadding : piece.isPadding = (Statement.ofText piece.text).isOrigin := by
        rw [Placed.isPadding_of_emit hp, htext, hps p List.mem_cons_self]
      rw [hp] at himage
      dsimp only at himage ⊢
      rw [Emission.bytes, List.flatMap_cons] at himage
      have hnext : base + start + piece.bytes.length = base + (start + piece.bytes.length : Nat) := by
        omega
      have hdrop : image.drop (start + piece.bytes.length) =
          (emit labels (base + (start + piece.bytes.length : Nat)) ps).bytes := by
        rw [← List.drop_drop, himage, List.drop_left, hnext]
        rfl
      have hfirst : Row.piece base image ⟨start, piece.bytes.length, piece.text⟩ = piece := by
        rw [Row.piece, Row.bytes, himage, List.take_left, ← haddress, Row.isOrigin, ← hpadding]
      rw [hnext, rows, List.map_cons, hfirst, ← ih (fun q hq => hps q (List.mem_cons_of_mem _ hq)) hdrop]

end Emit

/-! ## Between the rows -/

/-- An origin puts nothing but zeros. -/
theorem Statement.eq_zero_of_isOrigin {labels : Labels} {address : Int} {statement : Statement}
    {bytes : Image} (h : statement.isOrigin) (hemit : statement.emit labels address = .ok bytes) :
    ∀ b ∈ bytes, b = 0 := by
  cases statement with
  | origin target =>
    obtain ⟨target, -, rfl⟩ := emit_origin_eq_ok_iff.1 hemit
    exact fun b hb => List.eq_of_mem_replicate hb
  | bytes operands => cases h
  | words operands => cases h
  | instruction text => cases h

theorem Row.getElem_mem_bytes {image : Image} {r : Row} {k : Nat} (hk : k < image.length)
    (hstart : r.start ≤ k) (hstop : k < r.stop) : image[k] ∈ r.bytes image := by
  rw [stop] at hstop
  have hlength : k - r.start < (r.bytes image).length := by
    rw [bytes, List.length_take, List.length_drop]
    omega
  have hget : (r.bytes image)[k - r.start] = image[k] := by
    simp only [bytes, List.getElem_take, List.getElem_drop]
    congr 1
    omega
  rw [← hget]
  exact List.getElem_mem hlength

/-! ## Printed lines -/

theorem sublist_peelLabels (line : List Char) : (peelLabels line).2.Sublist line := by
  fun_induction peelLabels line with
  | case1 line hs => exact List.Sublist.refl line
  | case2 line first rest hs names rest' hrest ih =>
    obtain ⟨-, after, rfl, hafter⟩ := splitLabel?_eq_some_iff.1 hs
    rw [hrest] at ih
    rw [hafter] at ih
    exact ih.trans ((Text.trim_sublist after).trans
      ((List.sublist_cons_self _ _).trans (List.sublist_append_right _ _)))

/-- What is left of a line is a part of it. -/
theorem sublist_of_statementText? {raw text : List Char} (h : statementText? raw = some text) :
    text.Sublist raw := by
  rw [statementText?] at h
  split at h
  · cases h
  · cases h
    exact (sublist_peelLabels _).trans
      ((Text.trim_sublist _).trans (List.takeWhile_sublist _))

theorem newline_not_mem_of_mem_texts {source text : List Char}
    (h : text ∈ (source.splitOn '\n').filterMap statementText?) : '\n' ∉ text := by
  obtain ⟨raw, hraw, htext⟩ := List.mem_filterMap.1 h
  exact fun hn => Text.newline_not_mem_of_mem_splitOn hraw ((sublist_of_statementText? htext).mem hn)

theorem Row.newline_not_mem_line {base : Int} {image : Image} {r : Row} (h : '\n' ∉ r.text) :
    '\n' ∉ r.line base image := by
  have hcapital : ∀ width v, '\n' ∉ Hex.capital width v :=
    Literal.not_mem_capital (by decide) (by decide)
  have hshown : '\n' ∉ r.shown image := by
    rw [shown, List.mem_append, not_or]
    refine ⟨Text.not_mem_intercalate (by decide) fun digits hdigits => ?_, by split <;> decide⟩
    obtain ⟨b, -, rfl⟩ := List.mem_map.1 hdigits
    exact hcapital 2 b.toNat
  simp [line, List.rightpad, hcapital, hshown, h]

/-! ## The listing of an image -/

section Source

variable {source : List Char} {base : Int} {image : Image} {l : Layout}

/-- The statements of a text, the origins too, have rows one behind the other, which make up the
image. -/
theorem exists_rows (hl : Layout.ofSource source base = .ok l)
    (h : assemble source base = .ok image) :
    ∃ all : List Row, all.map Row.text = (source.splitOn '\n').filterMap statementText? ∧
      (emission source base).pieces = all.map (Row.piece base image) ∧
      (∀ r ∈ all, r.stop ≤ image.length ∧
        (Statement.ofText r.text).emit l.labels (base + r.start) = .ok (r.bytes image)) ∧
      (all.Pairwise fun r s => r.stop ≤ s.start) ∧
      ∀ k < image.length, ∃ r ∈ all, r.start ≤ k ∧ k < r.stop := by
  obtain ⟨hfault, himage⟩ := assemble_eq_ok_iff.1 h
  have hemission : emission source base = emit l.labels (base + (0 : Nat)) l.placed.reverse := by
    rw [emission, hl]
    exact congrArg (emit l.labels · _) (Int.add_zero base).symm
  have hstatements := Layout.statement_of_ofSource hl
  have hbytes : image.drop 0 = (emit l.labels (base + (0 : Nat)) l.placed.reverse).bytes := by
    rw [← hemission, himage, List.drop_zero]
  have hpieces := pieces_eq_map_rows hstatements hbytes
  have htexts := map_text_pieces (hemission ▸ hfault)
  rw [Layout.texts_of_ofSource hl, ← hemission] at htexts
  rw [← hemission] at hpieces
  rw [Emission.bytes] at himage
  refine ⟨rows 0 (emission source base).pieces, ?_, hpieces, fun r hr => ⟨?_, ?_⟩,
    pairwise_rows 0 _, fun k hk => ?_⟩
  · rw [map_text_rows, htexts]
  · have hstop := (bounds_of_mem_rows hr).2
    rwa [himage, Nat.zero_add] at hstop
  · have hmem : r.piece base image ∈ (emission source base).pieces := by
      rw [hpieces]
      exact List.mem_map_of_mem hr
    rw [hemission] at hmem
    exact emit_of_mem_pieces hstatements hmem
  · exact exists_row (Nat.zero_le k) (by rwa [himage, Nat.zero_add])

end Source

/-- Whenever a text is assembled, the image is the same whether a listing is printed or not.  The
listing has a row for each statement but the origins, in the order of the lines: its line shows the
address at which the bytes of the statement begin in the image, the first eight of them, and whether
there are more.  The rows lie in the image one behind the other, and every byte outside them is a
zero that an origin puts. -/
theorem listing_describes_image (source : List Char) (base : Int) (image : Image)
    (h : assemble source base = .ok image) :
    let listing := (emission source base).listing
    let texts := (source.splitOn '\n').filterMap statementText?
    (∀ listed, Printing.assemble listed source base = (.ok image, if listed then listing else [])) ∧
    (Text.printed listing).splitOn '\n' = listing ++ [[]] ∧
    ∃ (l : Layout) (shown : List Row), Layout.ofSource source base = .ok l ∧
      shown.map Row.text = texts.filter (fun text => !(Statement.ofText text).isOrigin) ∧
      listing = shown.map (Row.line base image) ∧
      (∀ r ∈ shown, r.stop ≤ image.length ∧
        (Statement.ofText r.text).emit l.labels (base + r.start) = .ok (r.bytes image)) ∧
      (shown.Pairwise fun r s => r.stop ≤ s.start) ∧
      ∀ (k : Nat) (hk : k < image.length), (∀ r ∈ shown, ¬(r.start ≤ k ∧ k < r.stop)) →
        image[k] = 0 ∧ ∃ gap : Row, gap.text ∈ texts ∧ gap.isOrigin ∧ gap.start ≤ k ∧
          k < gap.stop ∧ gap.stop ≤ image.length ∧
          (Statement.ofText gap.text).emit l.labels (base + gap.start) = .ok (gap.bytes image) := by
  obtain ⟨l, hl, -⟩ := Layout.exists_output_of_assemble h
  obtain ⟨all, htexts, hpieces, hemits, hpairwise, hcovers⟩ := exists_rows hl h
  -- The rows that are shown are those that do not belong to an origin.
  have hlisting : (emission source base).listing =
      (all.filter (!·.isOrigin)).map (Row.line base image) := by
    rw [Emission.listing, hpieces, List.filter_map, List.map_map]
    refine List.map_congr_left fun r hr => ?_
    exact Row.listing_piece (hemits r (List.mem_filter.1 hr).1).1
  refine ⟨fun listed => h ▸ Printing.assemble_eq listed source base, ?_, l,
    all.filter (!·.isOrigin), hl, ?_, hlisting, fun r hr => hemits r (List.mem_filter.1 hr).1,
    hpairwise.filter _, fun k hk houtside => ?_⟩
  · refine Text.splitOn_printed fun line hline => ?_
    rw [hlisting] at hline
    obtain ⟨r, hr, rfl⟩ := List.mem_map.1 hline
    have htext : r.text ∈ (source.splitOn '\n').filterMap statementText? := by
      rw [← htexts]
      exact List.mem_map_of_mem (List.mem_filter.1 hr).1
    exact Row.newline_not_mem_line (newline_not_mem_of_mem_texts htext)
  · rw [← htexts, List.filter_map]
    rfl
  · obtain ⟨gap, hgap, hstart, hstop⟩ := hcovers k hk
    have horigin : gap.isOrigin = true := by
      by_contra hshown
      exact houtside gap (List.mem_filter.2 ⟨hgap, by simpa using hshown⟩) ⟨hstart, hstop⟩
    obtain ⟨hin, hemit⟩ := hemits gap hgap
    refine ⟨?_, gap, ?_, horigin, hstart, hstop, hin, hemit⟩
    · exact Statement.eq_zero_of_isOrigin horigin hemit _ (Row.getElem_mem_bytes hk hstart hstop)
    · rw [← htexts]
      exact List.mem_map_of_mem hgap

/-- A text with more than eight bytes on a line, a gap behind them, and data without a byte. -/
theorem listing_describes_image_behind_gap :
    assemble "a: .db 1,2,3,4,5,6,7,8,9\n.org 0x20C\n.db\njp a".toList 0x200 =
        .ok [1, 2, 3, 4, 5, 6, 7, 8, 9, 0, 0, 0, 0x12, 0] ∧
      ∃ shown : List Row,
        shown.map Row.text = [".db 1,2,3,4,5,6,7,8,9".toList, ".db".toList, "jp a".toList] ∧
        (emission "a: .db 1,2,3,4,5,6,7,8,9\n.org 0x20C\n.db\njp a".toList 0x200).listing =
          shown.map (Row.line 0x200 [1, 2, 3, 4, 5, 6, 7, 8, 9, 0, 0, 0, 0x12, 0]) := by
  have h : assemble "a: .db 1,2,3,4,5,6,7,8,9\n.org 0x20C\n.db\njp a".toList 0x200 =
      .ok [1, 2, 3, 4, 5, 6, 7, 8, 9, 0, 0, 0, 0x12, 0] := by decide +kernel
  have htexts : (("a: .db 1,2,3,4,5,6,7,8,9\n.org 0x20C\n.db\njp a".toList.splitOn '\n').filterMap
      statementText?).filter (fun text => !(Statement.ofText text).isOrigin) =
      [".db 1,2,3,4,5,6,7,8,9".toList, ".db".toList, "jp a".toList] := by decide +kernel
  obtain ⟨-, -, l, shown, -, hshown, hlisting, -⟩ := listing_describes_image _ _ _ h
  exact ⟨h, shown, hshown.trans htexts, hlisting⟩

-- The line of the first row of this text.
example : Row.line 0x200 [1, 2, 3, 4, 5, 6, 7, 8, 9] ⟨0, 9, ".db 1,2,3,4,5,6,7,8,9".toList⟩ =
    "  0200  01 02 03 04 05 06 07 08 ... .db 1,2,3,4,5,6,7,8,9".toList := rfl

end ChipEight.Assembly
