/-
What a drawn sprite flips, and what it collides with.

A sprite is given by its rows.  No two of its rows land on the same row of the screen, because it is
no higher than the screen, and no two of its columns land on the same column.  A pixel is therefore
flipped at most once, and a row meets the pixels that were lit before the whole drawing.

Main definitions:
* `Screen.place`: where a position lands that may lie beyond the edges;
* `Screen.Covers`: a set bit of a row of the sprite lands on a pixel;
* `Screen.Clears`: a set bit of a row of the sprite lands on a lit pixel.

Main statements:
* `pixel_draw_ne_iff`: exactly the pixels are flipped on which a set bit of the sprite lands;
* `collisions_draw`: the rows that are counted are those that clear a lit pixel;
* `collisions_draw_ne_zero_iff`: some row is counted if a lit pixel has become dark.
-/
import ChipEight.Proofs.Screen.Sprites
import Mathlib.Tactic.Tauto

namespace ChipEight.Screen

/-! ## Places -/

theorem landing_eq_some_iff {n k j : Nat} {wrap : Bool} (hn : 0 < n) :
    landing n wrap k = some j ↔ j < n ∧ (if wrap then k % n else k) = j := by
  constructor
  · intro h
    refine ⟨lt_of_landing hn h, ?_⟩
    by_cases hk : k < n
    · rw [landing_of_lt hk, Option.some.injEq] at h
      rw [Nat.mod_eq_of_lt hk, ite_self, h]
    · cases wrap with
      | false =>
        rw [landing_clipped (Nat.not_lt.1 hk)] at h
        cases h
      | true => simpa [landing, hk] using h
  · rintro ⟨hj, rfl⟩
    by_cases hk : k < n
    · rw [landing_of_lt hk, Nat.mod_eq_of_lt hk, ite_self]
    · cases wrap with
      | false => exact absurd hj hk
      | true => simp [landing, hk]

/-- Where a position lands that may lie beyond the edges: it wraps around, or it stays where it is,
outside the screen. -/
def place (s : Screen) (wrap : Bool) (x y : Nat) : Nat × Nat :=
  if wrap then (x % s.width, y % s.height) else (x, y)

theorem place_eq_iff {s : Screen} {wrap : Bool} {x y px py : Nat} (hx : px < s.width)
    (hy : py < s.height) :
    s.place wrap x y = (px, py) ↔
      landing s.width wrap x = some px ∧ landing s.height wrap y = some py := by
  rw [landing_eq_some_iff s.resolution.width_pos, landing_eq_some_iff s.resolution.height_pos,
    place]
  cases wrap with
  | false => simp only [Bool.false_eq_true, if_false, Prod.mk.injEq]; tauto
  | true => simp only [if_true, Prod.mk.injEq]; tauto

/-- The pixel at a place is lit if the position lands on a lit pixel. -/
theorem pixel_place_iff {s : Screen} {wrap : Bool} {x y : Nat} :
    s.pixel (s.place wrap x y).1 (s.place wrap x y).2 = true ↔
      ∃ px py, landing s.width wrap x = some px ∧ landing s.height wrap y = some py ∧
        s.pixel px py = true := by
  constructor
  · intro h
    have hx : (s.place wrap x y).1 < s.width := by
      by_contra hx
      rw [pixel_eq_false_of_width_le (Nat.not_lt.1 hx)] at h
      cases h
    have hy : (s.place wrap x y).2 < s.height := by
      by_contra hy
      rw [pixel_eq_false_of_height_le (Nat.not_lt.1 hy)] at h
      cases h
    obtain ⟨hlx, hly⟩ := (place_eq_iff hx hy).1 rfl
    exact ⟨_, _, hlx, hly, h⟩
  · rintro ⟨px, py, hlx, hly, h⟩
    have hx := lt_of_landing s.resolution.width_pos hlx
    have hy := lt_of_landing s.resolution.height_pos hly
    rwa [(place_eq_iff hx hy).2 ⟨hlx, hly⟩]

/-! ## Rows of a sprite -/

section Sprite

variable {k : Nat} (sprite : Nat → BitVec k)

/-- A set bit of a row of the sprite lands on a pixel, where the screen has `w` columns and `h`
rows and the corner of the sprite stands in column `x` of row `y`. -/
def Covers (w h : Nat) (wrap : Bool) (x y row px py : Nat) : Prop :=
  landing h wrap (y + row) = some py ∧
    ∃ col < k, (sprite row).getMsbD col = true ∧ landing w wrap (x + col) = some px

/-- A set bit of a row of the sprite lands on a lit pixel. -/
def Clears (s : Screen) (wrap : Bool) (x y row : Nat) : Prop :=
  ∃ col < k, (sprite row).getMsbD col = true ∧
    s.pixel (s.place wrap (x + col) (y + row)).1 (s.place wrap (x + col) (y + row)).2 = true

instance (s : Screen) (wrap : Bool) (x y row : Nat) : Decidable (Clears sprite s wrap x y row) :=
  inferInstanceAs (Decidable (∃ col < k, _))

variable {sprite} {s t : Screen} {d : Drawing} {wrap : Bool} {x y row n px py : Nat}

theorem clears_iff_covers :
    Clears sprite s wrap x y row ↔
      ∃ px py, Covers sprite s.width s.height wrap x y row px py ∧ s.pixel px py = true := by
  simp only [Clears, Covers, pixel_place_iff]
  constructor
  · rintro ⟨col, hcol, hbit, px, py, hx, hy, hlit⟩
    exact ⟨px, py, ⟨hy, col, hcol, hbit, hx⟩, hlit⟩
  · rintro ⟨px, py, ⟨hy, col, hcol, hbit, hx⟩, hlit⟩
    exact ⟨col, hcol, hbit, px, py, hx, hy, hlit⟩

/-- Two rows of a sprite that is no higher than the screen cover different pixels. -/
theorem Covers.row_eq {w h row' : Nat} (hy : y < h) (hr : row < h) (hr' : row' < h)
    (hc : Covers sprite w h wrap x y row px py) {px' : Nat}
    (hc' : Covers sprite w h wrap x y row' px' py) : row = row' :=
  landing_inj hy hr hr' hc.1 hc'.1

namespace Drawing

/-! ## Drawing one row -/

/-- Exactly the pixels are flipped that the row covers. -/
theorem pixel_drawRow_ne_iff (hk : k ≤ d.screen.width) (hx : x < d.screen.width) :
    (d.drawRow wrap x (y + row) (sprite row)).screen.pixel px py ≠ d.screen.pixel px py ↔
      Covers sprite d.screen.width d.screen.height wrap x y row px py := by
  rw [Covers, ← getMsbD_placed_iff (sprite row) hk hx, drawRow]
  cases hl : landing d.screen.height wrap (y + row) with
  | none => simp
  | some py' =>
    have hpy' := lt_of_landing d.screen.resolution.height_pos hl
    dsimp only
    rw [pixel_modifyRow hpy', Option.some.injEq]
    by_cases hpy : py = py'
    · subst hpy
      rw [if_pos rfl, BitVec.getMsbD_xor, pixel]
      cases (d.screen.row py).getMsbD px <;> simp
    · rw [if_neg hpy]
      simp [Ne.symm hpy]

/-- A row that clears a lit pixel is counted. -/
theorem collisions_drawRow (hk : k ≤ d.screen.width) (hx : x < d.screen.width) :
    (d.drawRow wrap x (y + row) (sprite row)).collisions =
      d.collisions + if Clears sprite d.screen wrap x y row then 1 else 0 := by
  have hclears : Clears sprite d.screen wrap x y row ↔
      ∃ py, landing d.screen.height wrap (y + row) = some py ∧
        d.screen.row py &&& placed d.screen.width wrap x (sprite row) ≠ 0 := by
    simp only [clears_iff_covers, Covers, and_ne_zero_iff, getMsbD_placed_iff (sprite row) hk hx,
      pixel]
    tauto
  rw [drawRow]
  cases hl : landing d.screen.height wrap (y + row) with
  | none => simp [hclears, hl]
  | some py =>
    have hmeets : Clears sprite d.screen wrap x y row ↔
        ¬d.screen.row py &&& placed d.screen.width wrap x (sprite row) = 0 := by
      simp [hclears, hl]
    by_cases hclear : Clears sprite d.screen wrap x y row
    · exact (if_neg (hmeets.1 hclear)).trans (congrArg (d.collisions + ·) (if_pos hclear).symm)
    · rw [if_neg hclear]
      exact if_pos (not_not.1 fun hmeet => hclear (hmeets.2 hmeet))

/-! ## Drawing all rows -/

theorem width_drawRow {bits : BitVec k} :
    (d.drawRow wrap x y bits).screen.width = d.screen.width := by
  rw [Screen.width, resolution_drawRow]

theorem height_drawRow {bits : BitVec k} :
    (d.drawRow wrap x y bits).screen.height = d.screen.height := by
  rw [Screen.height, resolution_drawRow]

/-- The rows from `row` on are drawn one by one. -/
theorem drawRows_succ :
    d.drawRows wrap x (y + row) ((List.range' row (n + 1)).map sprite) =
      (d.drawRow wrap x (y + row) (sprite row)).drawRows wrap x (y + (row + 1))
        ((List.range' (row + 1) n).map sprite) := by
  rw [List.range'_succ, List.map_cons, drawRows, Nat.add_assoc]

/-- A row meets the same pixels whether or not a row above it has been drawn. -/
theorem clears_drawRow_iff {row' : Nat} (hk : k ≤ d.screen.width) (hx : x < d.screen.width)
    (hy : y < d.screen.height) (hr : row < row') (hr' : row' < d.screen.height) :
    Clears sprite (d.drawRow wrap x (y + row) (sprite row)).screen wrap x y row' ↔
      Clears sprite d.screen wrap x y row' := by
  rw [clears_iff_covers, clears_iff_covers, width_drawRow, height_drawRow]
  have hsame : ∀ px py, Covers sprite d.screen.width d.screen.height wrap x y row' px py →
      (d.drawRow wrap x (y + row) (sprite row)).screen.pixel px py = d.screen.pixel px py := by
    intro px py hcovers
    by_contra hne
    have heq := hcovers.row_eq hy hr' (by omega) ((pixel_drawRow_ne_iff hk hx).1 hne)
    omega
  constructor
  · rintro ⟨px, py, hcovers, hlit⟩
    exact ⟨px, py, hcovers, hsame px py hcovers ▸ hlit⟩
  · rintro ⟨px, py, hcovers, hlit⟩
    exact ⟨px, py, hcovers, (hsame px py hcovers).symm ▸ hlit⟩

/-- Exactly the pixels are flipped that one of the rows covers. -/
theorem pixel_drawRows_ne_iff (hk : k ≤ d.screen.width) (hx : x < d.screen.width)
    (hy : y < d.screen.height) (hrows : row + n ≤ d.screen.height) :
    (d.drawRows wrap x (y + row) ((List.range' row n).map sprite)).screen.pixel px py ≠
        d.screen.pixel px py ↔
      ∃ r, (row ≤ r ∧ r < row + n) ∧
        Covers sprite d.screen.width d.screen.height wrap x y r px py := by
  -- By induction on the rows: the first one and the others do not cover the same pixels.
  induction n generalizing d row with
  | zero =>
    constructor
    · intro hne
      exact absurd rfl hne
    · rintro ⟨r, hr, -⟩
      omega
  | succ n ih =>
    have hfirst : (d.drawRow wrap x (y + row) (sprite row)).screen.pixel px py ≠
          d.screen.pixel px py ↔
        Covers sprite d.screen.width d.screen.height wrap x y row px py :=
      pixel_drawRow_ne_iff hk hx
    have hrest := @ih (d.drawRow wrap x (y + row) (sprite row)) (row + 1)
      (by rwa [width_drawRow]) (by rwa [width_drawRow]) (by rwa [height_drawRow])
      (by rw [height_drawRow]; omega)
    rw [width_drawRow, height_drawRow] at hrest
    have hsplit : (∃ r, (row ≤ r ∧ r < row + (n + 1)) ∧
          Covers sprite d.screen.width d.screen.height wrap x y r px py) ↔
        Covers sprite d.screen.width d.screen.height wrap x y row px py ∨
          ∃ r, (row + 1 ≤ r ∧ r < row + 1 + n) ∧
            Covers sprite d.screen.width d.screen.height wrap x y r px py := by
      constructor
      · rintro ⟨r, hr, hc⟩
        by_cases heq : r = row
        · exact .inl (heq ▸ hc)
        · exact .inr ⟨r, by omega, hc⟩
      · rintro (hc | ⟨r, hr, hc⟩)
        · exact ⟨row, by omega, hc⟩
        · exact ⟨r, by omega, hc⟩
    have hapart : ¬(Covers sprite d.screen.width d.screen.height wrap x y row px py ∧
        ∃ r, (row + 1 ≤ r ∧ r < row + 1 + n) ∧
          Covers sprite d.screen.width d.screen.height wrap x y r px py) := by
      rintro ⟨hc, r, hr, hc'⟩
      have heq := hc.row_eq hy (by omega) (by omega) hc'
      omega
    rw [drawRows_succ, hsplit, ← hfirst, ← hrest]
    rw [← hfirst, ← hrest] at hapart
    -- A pixel that is flipped by one of the two only is another one in the end.
    generalize (Drawing.drawRows _ _ _ _ _).screen.pixel px py = last at hapart ⊢
    generalize (d.drawRow _ _ _ _).screen.pixel px py = middle at hapart ⊢
    generalize d.screen.pixel px py = first at hapart ⊢
    cases first <;> cases middle <;> cases last <;> simp_all

/-- The rows that are counted are those that clear a pixel of the screen as it was. -/
theorem collisions_drawRows (hk : k ≤ d.screen.width) (hx : x < d.screen.width)
    (hy : y < d.screen.height) (hrows : row + n ≤ d.screen.height) :
    (d.drawRows wrap x (y + row) ((List.range' row n).map sprite)).collisions =
      d.collisions + (List.range' row n).countP (Clears sprite d.screen wrap x y ·) := by
  induction n generalizing d row with
  | zero => rfl
  | succ n ih =>
    have hrest := @ih (d.drawRow wrap x (y + row) (sprite row)) (row + 1)
      (by rwa [width_drawRow]) (by rwa [width_drawRow]) (by rwa [height_drawRow])
      (by rw [height_drawRow]; omega)
    have hsame : (List.range' (row + 1) n).countP
          (Clears sprite (d.drawRow wrap x (y + row) (sprite row)).screen wrap x y ·) =
        (List.range' (row + 1) n).countP (Clears sprite d.screen wrap x y ·) := by
      refine List.countP_congr fun r hr => ?_
      obtain ⟨hle, hlt⟩ := List.mem_range'_1.1 hr
      rw [decide_eq_true_iff, decide_eq_true_iff]
      exact clears_drawRow_iff hk hx hy hle (by omega)
    rw [drawRows_succ, hrest, hsame, collisions_drawRow hk hx, List.range'_succ, List.countP_cons]
    simp only [decide_eq_true_eq]
    omega

end Drawing

/-! ## Whole sprites -/

/-- Exactly the pixels are flipped on which a set bit of the sprite lands. -/
theorem pixel_draw_ne_iff (hk : k ≤ s.width) (hx : x < s.width) (hy : y < s.height)
    (hn : n ≤ s.height) (hpx : px < s.width) (hpy : py < s.height) :
    (s.draw wrap x y ((List.range n).map sprite)).screen.pixel px py ≠ s.pixel px py ↔
      ∃ row < n, ∃ col < k, (sprite row).getMsbD col = true ∧
        s.place wrap (x + col) (y + row) = (px, py) := by
  rw [draw, List.range_eq_range', ← Nat.add_zero y]
  refine (Drawing.pixel_drawRows_ne_iff (d := ⟨s, 0⟩) hk hx hy (by simpa using hn)).trans ?_
  simp only [Covers, place_eq_iff hpx hpy, Nat.zero_le, true_and, Nat.zero_add, Nat.add_zero]
  tauto

/-- As many collisions are counted as rows of the sprite clear a pixel of the screen as it was. -/
theorem collisions_draw (hk : k ≤ s.width) (hx : x < s.width) (hy : y < s.height)
    (hn : n ≤ s.height) :
    (s.draw wrap x y ((List.range n).map sprite)).collisions =
      (List.range n).countP (Clears sprite s wrap x y ·) := by
  rw [draw, List.range_eq_range', ← Nat.add_zero y]
  refine (Drawing.collisions_drawRows (d := ⟨s, 0⟩) hk hx hy (by simpa using hn)).trans ?_
  simp

/-- Some collision is counted if a lit pixel has become dark. -/
theorem collisions_draw_ne_zero_iff (hk : k ≤ s.width) (hx : x < s.width) (hy : y < s.height)
    (hn : n ≤ s.height) :
    (s.draw wrap x y ((List.range n).map sprite)).collisions ≠ 0 ↔
      ∃ px < s.width, ∃ py < s.height, s.pixel px py = true ∧
        (s.draw wrap x y ((List.range n).map sprite)).screen.pixel px py = false := by
  rw [collisions_draw hk hx hy hn, Nat.ne_zero_iff_zero_lt, List.countP_pos_iff]
  constructor
  · rintro ⟨row, hrow, hclears⟩
    obtain ⟨col, hcol, hbit, hlit⟩ := of_decide_eq_true hclears
    obtain ⟨px, py, hlx, hly, hlit⟩ := pixel_place_iff.1 hlit
    have hpx := lt_of_landing s.resolution.width_pos hlx
    have hpy := lt_of_landing s.resolution.height_pos hly
    have hflipped : (s.draw wrap x y ((List.range n).map sprite)).screen.pixel px py ≠
        s.pixel px py := (pixel_draw_ne_iff hk hx hy hn hpx hpy).2
      ⟨row, List.mem_range.1 hrow, col, hcol, hbit, (place_eq_iff hpx hpy).2 ⟨hlx, hly⟩⟩
    rw [hlit, ne_eq, Bool.not_eq_true] at hflipped
    exact ⟨px, hpx, py, hpy, hlit, hflipped⟩
  · rintro ⟨px, hpx, py, hpy, hlit, hdark⟩
    obtain ⟨row, hrow, col, hcol, hbit, hplace⟩ :=
      (pixel_draw_ne_iff hk hx hy hn hpx hpy).1 (by rw [hdark, hlit]; decide)
    refine ⟨row, List.mem_range.2 hrow, decide_eq_true ⟨col, hcol, hbit, ?_⟩⟩
    rwa [hplace]

end Sprite

end ChipEight.Screen
