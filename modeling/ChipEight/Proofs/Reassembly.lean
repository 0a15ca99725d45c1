/-
A program that is disassembled is assembled into itself.

Every line of a listing ends with a phrase that stands for two bytes wherever it is put: an
instruction or data.  Lines of this kind are assembled into their bytes, one after the other.

Main definitions:
* `Assembly.Writes`: a line that stands for bytes, wherever it is put;
* `Disassembly.textField`: what a line of a listing holds after its address and its word;
* `Disassembly.restored`: the image that comes back.

Main statements:
* `Assembly.assemble_of_writes`: lines are assembled into the bytes that they stand for;
* `Disassembly.writes_wordText`: the text of a word stands for the two bytes of the word;
* `Disassembly.assemble_disassemble`: assembling a listing gives the image back.
-/
import ChipEight.Assembly.Emission
import ChipEight.Disassembly
import ChipEight.Proofs.Assembly.Written
import Mathlib.Data.List.Forall2

namespace ChipEight

namespace Assembly

/-! ## Lines that stand for bytes -/

/-- A line without labels and comments whose statement stands for the bytes, wherever it is put. -/
structure Writes (raw : List Char) (bytes : Image) : Prop where
  newline : '\n' ∉ raw
  peel : peelLabels (withoutComment raw) = ([], raw)
  ne_nil : raw ≠ []
  size : ∀ l : Layout, l.addressAfter (Statement.ofText raw) = .ok (l.address + bytes.length)
  emit : ∀ address, (Statement.ofText raw).emit [] address = .ok bytes

theorem addLine_of_writes {l : Layout} {line : Nat} {raw : List Char} {bytes : Image}
    (h : Writes raw bytes) : l.addLine line raw = .ok
      ⟨l.address + bytes.length, l.labels, ⟨line, raw, .ofText raw, l.address⟩ :: l.placed⟩ := by
  rw [Layout.addLine, h.peel]
  dsimp only
  rw [Layout.define]
  dsimp only
  rw [Layout.place, if_neg h.ne_nil]
  dsimp only
  rw [h.size]

/-- Lines that stand for bytes are laid out without labels, and their pieces are the bytes. -/
theorem addLines_of_writes {raws : List (List Char)} {pieces : List Image}
    (h : List.Forall₂ Writes raws pieces) (l : Layout) (line : Nat) :
    ∃ address placed, l.addLines line raws = .ok ⟨address, l.labels, placed.reverse ++ l.placed⟩ ∧
      ∀ a, (Assembly.emit [] a placed).fault = none ∧
        (Assembly.emit [] a placed).bytes = pieces.flatten := by
  -- By induction on the lines; what was placed before them stays behind what they place.
  induction h generalizing l line with
  | nil => exact ⟨l.address, [], rfl, fun a => ⟨rfl, rfl⟩⟩
  | @cons raw bytes raws pieces hraw _ ih =>
    obtain ⟨address, placed, hadd, hemit⟩ := ih
      ⟨l.address + bytes.length, l.labels, ⟨line, raw, .ofText raw, l.address⟩ :: l.placed⟩
      (line + 1)
    refine ⟨address, ⟨line, raw, .ofText raw, l.address⟩ :: placed, ?_, fun a => ?_⟩
    · rw [Layout.addLines, addLine_of_writes hraw]
      dsimp only
      rw [hadd, List.reverse_cons, List.append_assoc, List.singleton_append]
    · obtain ⟨hfault, hbytes⟩ := hemit (a + bytes.length)
      rw [Emission.bytes] at hbytes
      rw [Assembly.emit, Placed.emit, hraw.emit]
      refine ⟨hfault, ?_⟩
      rw [Emission.bytes, List.flatMap_cons, hbytes, List.flatten_cons]

theorem newline_of_writes {raws : List (List Char)} {pieces : List Image}
    (h : List.Forall₂ Writes raws pieces) : ∀ raw ∈ raws, '\n' ∉ raw := by
  induction h with
  | nil => exact fun raw hraw => absurd hraw List.not_mem_nil
  | cons hraw _ ih => exact List.forall_mem_cons.2 ⟨hraw.newline, ih⟩

theorem ofSource_nil (base : Int) : Layout.ofSource [] base = .ok (Layout.start base) := by
  have hpeel : peelLabels (withoutComment []) = ([], []) :=
    peelLabels_of_splitLabel?_eq_none rfl
  have hblank : (Layout.start base).addLine 1 [] = .ok (Layout.start base) := by
    rw [Layout.addLine, hpeel]
    rfl
  rw [Layout.ofSource, List.splitOn_nil, Layout.addLines, hblank]
  rfl

/-- Lines are assembled into the bytes that they stand for. -/
theorem assemble_of_writes {raws : List (List Char)} {pieces : List Image}
    (h : List.Forall₂ Writes raws pieces) (base : Int) :
    assemble (['\n'].intercalate raws) base = .ok pieces.flatten := by
  by_cases hraws : raws = []
  · -- Without lines the text is one blank line.
    subst hraws
    cases h
    rw [assemble_eq_ok_iff, emission, List.intercalate_nil, ofSource_nil]
    exact ⟨rfl, rfl⟩
  · obtain ⟨address, placed, hadd, hemit⟩ := addLines_of_writes h (Layout.start base) 1
    have hsource : Layout.ofSource (['\n'].intercalate raws) base =
        .ok ⟨address, [], placed.reverse⟩ := by
      rw [Layout.ofSource, List.splitOn_intercalate _ (newline_of_writes h) hraws, hadd,
        Layout.start, List.append_nil]
    rw [assemble_eq_ok_iff, emission, hsource]
    dsimp only
    rw [List.reverse_reverse]
    exact hemit base

/-! ## Phrases as lines -/

/-- Without a colon there is no label. -/
theorem splitLabel?_of_colon_not_mem {line : List Char} (h : ':' ∉ line) :
    splitLabel? line = none := by
  rw [splitLabel?.eq_def]
  split
  · rfl
  · rename_i c s
    split
    · split
      · rename_i rest hrest
        have hmem : ':' ∈ s.dropWhile isLabelChar := by rw [hrest]; exact List.mem_cons_self
        exact absurd (List.mem_cons_of_mem c ((List.dropWhile_sublist _).mem hmem)) h
      · rfl
    · rfl

section Phrase

variable {head : List Char} {words : List (List Char)} (hh : Text.PlainWord head)
  (hw : ∀ w ∈ words, Text.PlainWord w)
include hh hw

theorem not_mem_phrase {c : Char} (hc : ¬Text.Plain c) (hblank : c ≠ ' ') (hcomma : c ≠ ',') :
    c ∉ Text.phrase head words := by
  intro hmem
  rcases Text.eq_or_plain_of_mem_phrase hh hw hmem with h | h | h
  · exact hblank h
  · exact hcomma h
  · exact hc h

/-- A phrase is a line without labels and comments. -/
theorem peelLabels_phrase :
    peelLabels (withoutComment (Text.phrase head words)) = ([], Text.phrase head words) := by
  have hsemicolon : ';' ∉ Text.phrase head words :=
    not_mem_phrase hh hw (by decide) (by decide) (by decide)
  have hcolon : ':' ∉ Text.phrase head words :=
    not_mem_phrase hh hw (by decide) (by decide) (by decide)
  have htake : (Text.phrase head words).takeWhile (· ≠ ';') = Text.phrase head words := by
    rw [List.takeWhile_eq_self_iff]
    intro c hc
    have hne : c ≠ ';' := by
      rintro rfl
      exact hsemicolon hc
    simpa using hne
  rw [withoutComment, htake, Text.trim_phrase hh hw,
    peelLabels_of_splitLabel?_eq_none (splitLabel?_of_colon_not_mem hcolon)]

theorem phrase_ne_nil : Text.phrase head words ≠ [] := by
  cases words with
  | nil => exact hh.ne_nil
  | cons w words =>
    rw [Text.phrase_cons]
    exact List.append_ne_nil_of_left_ne_nil hh.ne_nil _

/-- A phrase stands for bytes, if its statement does. -/
theorem writes_phrase {bytes : Image}
    (hsize : ∀ l : Layout, l.addressAfter (.ofText (Text.phrase head words)) =
      .ok (l.address + bytes.length))
    (hemit : ∀ address, (Statement.ofText (Text.phrase head words)).emit [] address = .ok bytes) :
    Writes (Text.phrase head words) bytes where
  newline := not_mem_phrase hh hw (by decide) (by decide) (by decide)
  peel := peelLabels_phrase hh hw
  ne_nil := phrase_ne_nil hh hw
  size := hsize
  emit := hemit

end Phrase

/-! ## Instructions and data -/

theorem ofText_of_ne_dot {c : Char} {s : List Char} (h : c.toLower ≠ '.') :
    Statement.ofText (c :: s) = .instruction (c :: s) := by
  have hstart (p : List Char) : Text.startsWithFold ('.' :: p) (c :: s) = false := by
    rw [Text.startsWithFold, List.length_cons, List.take_succ_cons, List.map_cons,
      List.cons_beq_cons, beq_false_of_ne h, Bool.false_and]
  rw [Statement.ofText, hstart, hstart, hstart]
  rfl

theorem exists_mnemonic_eq (o : Opcode) :
    ∃ c s, o.form.mnemonic.map Char.toUpper = c :: s ∧ c.toLower ≠ '.' := by
  cases o <;> exact ⟨_, _, rfl, by decide⟩

/-- The text of an instruction stands for its word. -/
theorem writes_text {i : Instruction} {word : Nat} (h : i.encode = .ok word) :
    ∃ text, i.text = .ok text ∧ Writes text (wordBytes word) := by
  have hs := (Instruction.encode_eq_ok_iff.1 h).1
  refine ⟨_, hs.text_eq, ?_⟩
  have hstatement : Statement.ofText
        (Text.phrase (i.opcode.form.mnemonic.map Char.toUpper) i.slotWords) =
      .instruction (Text.phrase (i.opcode.form.mnemonic.map Char.toUpper) i.slotWords) := by
    -- No mnemonic begins like a directive.
    obtain ⟨c, s, hc, hdot⟩ := exists_mnemonic_eq i.opcode
    rw [hc]
    cases i.slotWords with
    | nil => exact ofText_of_ne_dot hdot
    | cons w words => exact ofText_of_ne_dot hdot
  refine writes_phrase (plainWord_mnemonic _) (plainWord_of_mem_slotWords hs) ?_ fun address => ?_
  · intro l
    rw [hstatement]
    rfl
  · have hn : Labels.Named [] := fun p hp => absurd hp List.not_mem_nil
    rw [hstatement, Statement.emit, instruction_of_text h hn hs.text_eq]
    dsimp only
    rw [h]

theorem ofText_data (s : List Char) :
    Statement.ofText ('.' :: 'd' :: 'w' :: ' ' :: s) = .words (Text.items (' ' :: s)) :=
  rfl

/-- Data stands for its word. -/
theorem writes_dataText (word : Nat) : Writes (Disassembly.dataText word) (wordBytes word) := by
  have h0 : 0 ≤ (word : Int) := Int.natCast_nonneg word
  have hnumeral := (isNumeral_marked h0 6).plainWord
  have hphrase : Disassembly.dataText word = Text.phrase ['.', 'd', 'w'] [Hex.marked 6 word] := by
    rw [Text.phrase_cons, Text.joined, List.intercalate_singleton]
    rfl
  have hstatement : Statement.ofText (Text.phrase ['.', 'd', 'w'] [Hex.marked 6 word]) =
      .words [Hex.marked 6 word] := by
    have hitems : Text.items (' ' :: Text.joined [Hex.marked 6 word]) = [Hex.marked 6 word] := by
      rw [Text.items_blank_cons, Text.items_joined (List.forall_mem_singleton.2 hnumeral)]
    rw [Text.phrase_cons]
    exact (ofText_data _).trans (congrArg Statement.words hitems)
  rw [hphrase]
  refine writes_phrase (by decide) (List.forall_mem_singleton.2 hnumeral) ?_ ?_
  · intro l
    rw [hstatement]
    rfl
  · intro address
    rw [hstatement, Statement.emit, values, value, List.lookup_nil, Literal.read_marked h0]
    rfl

end Assembly

namespace Disassembly

/-! ## Listings -/

/-- What follows the first two blanks that stand side by side. -/
def afterGap : List Char → List Char
  | ' ' :: ' ' :: s => s
  | _ :: s => afterGap s
  | [] => []

/-- The text of a line, which stands behind the second gap of the line. -/
def textField (line : List Char) : List Char :=
  afterGap (afterGap line)

theorem afterGap_append {a : List Char} (h : ' ' ∉ a) (s : List Char) :
    afterGap (a ++ [' ', ' '] ++ s) = s := by
  induction a with
  | nil => rfl
  | cons c a ih =>
    rw [List.mem_cons, not_or] at h
    rw [List.cons_append, List.cons_append, afterGap, ih h.2]
    intro t hc
    exact absurd hc.symm h.1

theorem blank_not_mem_capital (width : Nat) (v : Int) : ' ' ∉ Hex.capital width v :=
  Literal.not_mem_capital (by decide) (by decide) width v

/-- The text of a line is the text of its word. -/
theorem textField_line (address : Int) (word : Nat) :
    textField (line address word) = wordText word := by
  rw [textField, line, List.append_assoc, List.append_assoc, afterGap_append
    (blank_not_mem_capital 4 address), ← List.append_assoc, afterGap_append
    (blank_not_mem_capital 4 word)]

/-! ## The image that comes back -/

/-- The text of a word stands for the bytes of the word. -/
theorem writes_wordText {word : Nat} (h : word < 65536) :
    Assembly.Writes (wordText word) (Assembly.wordBytes (Instruction.canonical word)) := by
  rw [wordText.eq_def]
  cases hd : Instruction.decode word with
  | error e =>
    -- The second way to clear the screen is an instruction, so that data comes back as it is.
    have hcanonical : Instruction.canonical word = word := by
      refine if_neg ?_
      rintro rfl
      cases hd
    rw [hcanonical]
    exact Assembly.writes_dataText word
  | ok i =>
    obtain ⟨text, ht, hwrites⟩ := Assembly.writes_text (Instruction.encode_of_decode h hd)
    dsimp only
    rw [ht]
    exact hwrites

/-- The image that comes back: a last byte by itself is left out, and where a pair of bytes is the
second way to clear the screen, the first way stands. -/
def restored : Image → Image
  | a :: b :: s => (if a = 0x02 ∧ b = 0x30 then [0x00, 0xE0] else [a, b]) ++ restored s
  | _ => []

example : restored [0x02, 0x30, 0x30, 0x02, 0x30, 0x02, 0x05] =
    [0x00, 0xE0, 0x30, 0x02, 0x30, 0x02] := rfl

theorem wordBytes_canonical (a b : UInt8) :
    Assembly.wordBytes (Instruction.canonical (a.toNat * 256 + b.toNat)) =
      if a = 0x02 ∧ b = 0x30 then [0x00, 0xE0] else [a, b] := by
  have ha := a.toNat_lt
  have hb := b.toNat_lt
  have hiff : a.toNat * 256 + b.toNat = 0x0230 ↔ a = 0x02 ∧ b = 0x30 := by
    rw [← UInt8.toNat_inj, ← UInt8.toNat_inj]
    constructor
    · intro h
      change a.toNat = 2 ∧ b.toNat = 48
      omega
    · rintro ⟨h, h'⟩
      rw [h, h']
      rfl
  rw [Instruction.canonical]
  simp only [hiff]
  split
  · rfl
  · have hhigh : UInt8.ofInt (((a.toNat * 256 + b.toNat : Nat) : Int) / 256) = a :=
      ofInt_of_emod (by omega)
    have hlow : UInt8.ofInt ((a.toNat * 256 + b.toNat : Nat) : Int) = b :=
      ofInt_of_emod (by omega)
    rw [Assembly.wordBytes, hhigh, hlow]

theorem lt_of_mem_words {image : Image} {offset : Nat} {p : Nat × Nat}
    (h : p ∈ words offset image) : p.2 < 65536 := by
  fun_induction words offset image with
  | case1 => cases h
  | case2 => cases h
  | case3 offset a b s ih =>
    rcases List.mem_cons.1 h with rfl | h
    · have ha := a.toNat_lt
      have hb := b.toNat_lt
      dsimp only
      omega
    · exact ih h

theorem flatten_words (offset : Nat) (image : Image) :
    ((words offset image).map fun p => Assembly.wordBytes (Instruction.canonical p.2)).flatten =
      restored image := by
  fun_induction words offset image with
  | case1 => rfl
  | case2 => rfl
  | case3 offset a b s ih =>
    rw [List.map_cons, List.flatten_cons, ih, restored, wordBytes_canonical]

/-- The texts of a listing are assembled into the image, at whatever addresses both stand. -/
theorem assemble_disassemble (image : Image) (base base' : Int) :
    Assembly.assemble (['\n'].intercalate ((disassemble image base).map textField)) base' =
      .ok (restored image) := by
  have htexts : (disassemble image base).map textField =
      (words 0 image).map fun p => wordText p.2 := by
    rw [disassemble, List.map_map]
    exact List.map_congr_left fun p _ => textField_line _ _
  have hwrites : List.Forall₂ Assembly.Writes ((words 0 image).map fun p => wordText p.2)
      ((words 0 image).map fun p => Assembly.wordBytes (Instruction.canonical p.2)) := by
    rw [List.forall₂_map_left_iff, List.forall₂_map_right_iff, List.forall₂_same]
    exact fun p hp => writes_wordText (lt_of_mem_words hp)
  rw [htexts, Assembly.assemble_of_writes hwrites base', flatten_words]

end Disassembly

end ChipEight
