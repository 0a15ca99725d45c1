/-
Pixels as text, and the pixels that are read back from it.

Main definitions:
* `Screen.ShowsRows`: the lines show the pixels in rows of some width;
* `Screen.readPixels`: the pixels that a text shows.

Main statements:
* `length_chunks`, `getElem?_chunks`: how many pieces a list has, and what each of them holds;
* `Screen.showsRows_splitOn`: the lines of the text of pixels show them;
* `Screen.readPixels_unlines`: pixels are read back from their text;
* `Screen.renderText_faithful`: both of these, and the size of the text of a machine in order.
-/
import ChipEight.Proofs.Text.Lines
import ChipEight.Proofs.WellFormed
import Mathlib.Algebra.Order.Floor.Div

namespace ChipEight

/-! ## Pieces of a list -/

section Chunks

variable {α : Type} {w : Nat} (hw : 0 < w)

theorem length_chunks (s : List α) : (chunks w hw s).length = s.length ⌈/⌉ w := by
  fun_induction chunks w hw s with
  | case1 => rw [List.length_nil, List.length_nil, zero_ceilDiv]
  | case2 a s ih =>
    rw [List.length_cons, ih, List.length_drop, List.length_cons, Nat.ceilDiv_eq_add_pred_div,
      Nat.ceilDiv_eq_add_pred_div, ← Nat.add_div_right _ hw]
    -- What is left after the first piece may be nothing.
    by_cases h : w ≤ s.length + 1
    · congr 1
      omega
    · rw [Nat.div_eq_of_lt_le (k := 1), Nat.div_eq_of_lt_le (k := 1)] <;> omega

/-- The piece `y` starts at the place `y * w` and holds the next `w` elements. -/
theorem getElem?_chunks (s : List α) (y : Nat) :
    (chunks w hw s)[y]? = if y * w < s.length then some ((s.drop (y * w)).take w) else none := by
  fun_induction chunks w hw s generalizing y with
  | case1 => rw [List.getElem?_nil, List.length_nil, if_neg (Nat.not_lt_zero _)]
  | case2 a s ih =>
    cases y with
    | zero => simp
    | succ y =>
      have hplace : y * w < (a :: s).length - w ↔ (y + 1) * w < (a :: s).length := by
        rw [Nat.succ_mul]
        omega
      rw [List.getElem?_cons_succ, ih, List.length_drop, List.drop_drop]
      simp only [hplace, Nat.succ_mul, Nat.add_comm w]

end Chunks

namespace Screen

/-! ## Lines of pixels -/

section Lines

variable {w : Nat} (hw : 0 < w) (pixels : List Bool)

theorem renderText_eq_unlines :
    renderText pixels w = .ok (Text.unlines (lines pixels w hw)) :=
  dif_pos (by rwa [Int.toNat_natCast])

/-- A line is blocks and spaces. -/
theorem newline_not_mem_lines {line : List Char} (h : line ∈ lines pixels w hw) : '\n' ∉ line := by
  rw [lines, List.mem_map] at h
  obtain ⟨row, -, rfl⟩ := h
  rw [List.mem_map]
  rintro ⟨lit, -, hlit⟩
  cases lit with
  | true => exact absurd hlit (by decide)
  | false => exact absurd hlit (by decide)

theorem lines_eq_nil_iff : lines pixels w hw = [] ↔ pixels = [] := by
  rw [lines, List.map_eq_nil_iff]
  constructor
  · intro h
    rw [← flatten_chunks hw pixels, h, List.flatten_nil]
  · rintro rfl
    rw [chunks]

theorem length_lines : (lines pixels w hw).length = pixels.length ⌈/⌉ w := by
  rw [lines, List.length_map, length_chunks]

theorem getElem?_lines (y : Nat) :
    (lines pixels w hw)[y]? =
      if y * w < pixels.length then some (((pixels.drop (y * w)).take w).map pixelChar)
      else none := by
  rw [lines, List.getElem?_map, getElem?_chunks]
  split <;> rfl

/-- A text without pixels still has one line, which is empty. -/
theorem splitOn_unlines_lines :
    (Text.unlines (lines pixels w hw)).splitOn '\n' =
      if pixels = [] then [[]] else lines pixels w hw := by
  split
  · rename_i h
    rw [(lines_eq_nil_iff hw pixels).2 h]
    exact List.splitOn_nil '\n'
  · rename_i h
    refine Text.splitOn_unlines (fun hnil => h ((lines_eq_nil_iff hw pixels).1 hnil)) ?_
    exact fun line hline => newline_not_mem_lines hw pixels hline

end Lines

/-! ## What the lines show -/

/-- The lines show the pixels in rows of `w`: there are as many lines as it takes, and at least
one; all but the last are full; and the character in column `x` of line `y` is a block if the
pixel at the place `y * w + x` is lit, and a space if it is dark. -/
structure ShowsRows (pixels : List Bool) (w : Nat) (rows : List (List Char)) : Prop where
  length_eq : rows.length = if pixels = [] then 1 else pixels.length ⌈/⌉ w
  length_row : ∀ y row, rows[y]? = some row → y + 1 < rows.length → row.length = w
  char_eq : ∀ x y, (rows[y]?.bind fun row => row[x]?) =
    if x < w then pixels[y * w + x]?.map fun lit => if lit then '█' else ' ' else none

theorem showsRows_nil {w : Nat} : ShowsRows [] w [[]] where
  length_eq := rfl
  length_row y row _ hy := absurd hy (by simp)
  char_eq x y := by
    cases y <;> simp

theorem showsRows_lines {w : Nat} (hw : 0 < w) {pixels : List Bool} (hne : pixels ≠ []) :
    ShowsRows pixels w (lines pixels w hw) where
  length_eq := by rw [if_neg hne, length_lines]
  length_row y row hrow hy := by
    -- There is a pixel in the next line, so this one is full.
    have hnext := List.getElem?_eq_getElem hy
    rw [getElem?_lines, Option.ite_none_right_eq_some, Nat.succ_mul] at hnext
    rw [getElem?_lines, Option.ite_none_right_eq_some, Option.some.injEq] at hrow
    rw [← hrow.2, List.length_map, List.length_take, List.length_drop]
    omega
  char_eq x y := by
    rw [getElem?_lines]
    by_cases hy : y * w < pixels.length
    · rw [if_pos hy, Option.bind_some, List.getElem?_map, List.getElem?_take]
      split
      · rw [List.getElem?_drop]
        rfl
      · rfl
    · have hplace : pixels.length ≤ y * w + x := by omega
      rw [if_neg hy, List.getElem?_eq_none hplace, Option.map_none, ite_self]
      rfl

/-- The lines of the text of pixels show them. -/
theorem showsRows_splitOn {w : Nat} (hw : 0 < w) (pixels : List Bool) :
    ShowsRows pixels w ((Text.unlines (lines pixels w hw)).splitOn '\n') := by
  rw [splitOn_unlines_lines]
  split
  · rename_i h
    rw [h]
    exact showsRows_nil
  · exact showsRows_lines hw ‹_›

/-! ## Pixels read back -/

/-- The pixels that a text shows: blocks are lit, all other characters of the lines are dark. -/
def readPixels (text : List Char) : List Bool :=
  (text.filter (· ≠ '\n')).map (· = '█')

/-- Pixels are read back from their text. -/
theorem readPixels_unlines {w : Nat} (hw : 0 < w) (pixels : List Bool) :
    readPixels (Text.unlines (lines pixels w hw)) = pixels := by
  have hread : ∀ lit ∈ pixels, decide (pixelChar lit = '█') = lit := by
    intro lit _
    cases lit <;> decide
  rw [readPixels, Text.unlines,
    Text.filter_intercalate fun line hline => newline_not_mem_lines hw pixels hline, lines,
    ← List.map_flatten, flatten_chunks, List.map_map]
  exact (List.map_congr_left hread).trans (List.map_id pixels)

/-! ## Pixels that fill their rows -/

section Full

variable {w h : Nat} (hw : 0 < w) {pixels : List Bool} (hlength : pixels.length = w * h)

include hlength

theorem length_lines_of_length : (lines pixels w hw).length = h := by
  rw [length_lines, hlength, ← smul_eq_mul, smul_ceilDiv hw]

theorem length_of_mem_lines {line : List Char} (hline : line ∈ lines pixels w hw) :
    line.length = w := by
  obtain ⟨y, hy⟩ := List.mem_iff_getElem?.1 hline
  rw [getElem?_lines, Option.ite_none_right_eq_some, Option.some.injEq, hlength,
    Nat.mul_comm w h] at hy
  obtain ⟨hplace, rfl⟩ := hy
  have hrow : (y + 1) * w ≤ h * w := Nat.mul_le_mul_right w (Nat.lt_of_mul_lt_mul_right hplace)
  rw [Nat.succ_mul] at hrow
  rw [List.length_map, List.length_take, List.length_drop, hlength, Nat.mul_comm w h]
  omega

theorem splitOn_unlines_of_length (hh : 0 < h) :
    (Text.unlines (lines pixels w hw)).splitOn '\n' = lines pixels w hw := by
  have hne : pixels ≠ [] := List.ne_nil_of_length_pos (hlength ▸ Nat.mul_pos hw hh)
  rw [splitOn_unlines_lines, if_neg hne]

end Full

/-! ## The text of a machine in order -/

theorem renderText_pixels (s : Screen) : renderText s.pixels s.width = .ok s.text :=
  renderText_eq_unlines s.resolution.width_pos s.pixels

theorem splitOn_text (s : Screen) : s.text.splitOn '\n' = s.textLines :=
  splitOn_unlines_of_length s.resolution.width_pos ((length_pixels s).trans (Nat.mul_comm _ _))
    s.resolution.height_pos

/-- The text of what is in order has the size of the screen. -/
theorem exists_renderText_of_wellFormed {f : Flat} (hf : f.WellFormed) :
    ∃ text, renderText f.pixels f.width = .ok text ∧ (text.splitOn '\n').length = f.height ∧
      ∀ row ∈ text.splitOn '\n', row.length = f.width := by
  have hsize : 0 < f.width ∧ 0 < f.height := by
    have hboth := hf.size
    rw [Prod.ext_iff] at hboth
    split at hboth <;> omega
  refine ⟨_, renderText_eq_unlines hsize.1 f.pixels, ?_⟩
  rw [splitOn_unlines_of_length hsize.1 hf.pixels_length hsize.2]
  exact ⟨length_lines_of_length hsize.1 hf.pixels_length,
    fun row hrow => length_of_mem_lines hsize.1 hf.pixels_length hrow⟩

/-- Pixels in rows of any width have a text, whose lines show each of them at its place; pixels in
rows of one width with the same text are the same; and the text of a machine in order, which is
the text of its screen, has as many lines and columns as the screen. -/
theorem renderText_faithful :
    (∀ (pixels : List Bool) (w : Nat), 0 < w →
      ∃ text, renderText pixels w = .ok text ∧ ShowsRows pixels w (text.splitOn '\n')) ∧
    (∀ (p q : List Bool) (w : Nat), 0 < w → renderText p w = renderText q w → p = q) ∧
    (∀ f : Flat, f.WellFormed → ∃ text, renderText f.pixels f.width = .ok text ∧
      (text.splitOn '\n').length = f.height ∧ ∀ row ∈ text.splitOn '\n', row.length = f.width) ∧
    ∀ s : Machine, s.WellFormed →
      renderText s.cpu.flat.pixels s.cpu.flat.width = .ok s.cpu.screen.text ∧
      (s.cpu.screen.text.splitOn '\n').length = s.cpu.screen.height ∧
      ∀ row ∈ s.cpu.screen.text.splitOn '\n', row.length = s.cpu.screen.width := by
  refine ⟨fun pixels w hw => ?_, fun p q w hw h => ?_, fun f hf => ?_, fun s hs => ?_⟩
  · exact ⟨_, renderText_eq_unlines hw pixels, showsRows_splitOn hw pixels⟩
  · rw [renderText_eq_unlines hw, renderText_eq_unlines hw, Except.ok.injEq] at h
    rw [← readPixels_unlines hw p, h, readPixels_unlines]
  · exact exists_renderText_of_wellFormed hf
  · obtain ⟨text, htext, hsize⟩ := exists_renderText_of_wellFormed hs.cpu
    have hscreen := renderText_pixels s.cpu.screen
    obtain rfl : s.cpu.screen.text = text := Except.ok.inj (hscreen.symm.trans htext)
    exact ⟨hscreen, hsize⟩

/-- Six pixels in rows of four, of which the second is not full; the same pixels with a dark one
behind them; and a machine whose screen is dark. -/
theorem renderText_faithful_of_six :
    let pixels := [true, false, false, true, true, true]
    let s := Machine.fresh .chip8 1000000 1
    (0 < 4 ∧ ∃ text, renderText pixels 4 = .ok text ∧ ShowsRows pixels 4 (text.splitOn '\n')) ∧
      renderText (pixels ++ [false]) 4 ≠ renderText pixels 4 ∧
      (s.WellFormed ∧ ∃ text, renderText s.cpu.flat.pixels 64 = .ok text ∧
        (text.splitOn '\n').length = 32 ∧ ∀ row ∈ text.splitOn '\n', row.length = 64) ∧
      (s.cpu.screen.text.splitOn '\n').length = 32 := by
  intro pixels s
  have hs : s.WellFormed := Machine.wellFormed_iff.2 (Machine.inRange_fresh _ _ _)
  refine ⟨⟨by decide, renderText_faithful.1 pixels 4 (by decide)⟩, fun h => ?_,
    ⟨hs, renderText_faithful.2.2.1 s.cpu.flat hs.cpu⟩, (renderText_faithful.2.2.2 s hs).2.1⟩
  exact absurd (renderText_faithful.2.1 (pixels ++ [false]) pixels 4 (by decide) h) (by decide)

end Screen

end ChipEight
