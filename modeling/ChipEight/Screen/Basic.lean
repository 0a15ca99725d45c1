/-
The screen: rows of pixels that are lit or dark, in one of two resolutions.

A row is a bit vector whose most significant bit is the leftmost pixel.  Pixels outside the
screen are dark.

Main statements:
* `pixel_scrollDown`, `pixel_scrollRight`, `pixel_scrollLeft`: where the pixels of a scrolled
  screen come from;
* `length_pixels`: the pixels in a row are as many as the screen has.
-/
namespace ChipEight

/-- The resolutions of the screen. -/
inductive Resolution
  /-- 64 by 32 pixels. -/
  | low
  /-- 128 by 64 pixels. -/
  | high
  deriving DecidableEq, Repr

namespace Resolution

/-- The number of pixels in a row. -/
def width : Resolution → Nat
  | low => 64
  | high => 128

/-- The number of rows. -/
def height : Resolution → Nat
  | low => 32
  | high => 64

theorem width_pos (r : Resolution) : 0 < r.width := by
  cases r <;> decide

theorem height_pos (r : Resolution) : 0 < r.height := by
  cases r <;> decide

/-- The name of the resolution in reports. -/
def name : Resolution → String
  | low => "lores"
  | high => "hires"

end Resolution

/-- A screen in one of the resolutions. -/
structure Screen where
  /-- The resolution. -/
  resolution : Resolution
  /-- The rows, from the top. -/
  rows : Vector (BitVec resolution.width) resolution.height

namespace Screen

/-- The number of pixels in a row. -/
abbrev width (s : Screen) : Nat :=
  s.resolution.width

/-- The number of rows. -/
abbrev height (s : Screen) : Nat :=
  s.resolution.height

/-- The row `y`; rows outside the screen are dark. -/
def row (s : Screen) (y : Nat) : BitVec s.width :=
  if h : y < s.height then s.rows[y] else 0

/-- The pixel in column `x` of row `y`; pixels outside the screen are dark. -/
def pixel (s : Screen) (x y : Nat) : Bool :=
  (s.row y).getMsbD x

/-- The screen whose rows are given by their number. -/
def ofRows (r : Resolution) (row : Nat → BitVec r.width) : Screen :=
  ⟨r, Vector.ofFn fun y => row y⟩

/-- The screen all of whose pixels are equal. -/
def filled (r : Resolution) (lit : Bool) : Screen :=
  ofRows r fun _ => if lit then BitVec.allOnes _ else 0

/-- The dark screen. -/
def dark (r : Resolution) : Screen :=
  filled r false

/-- The screen with row `y` changed by `f`; rows outside the screen do not change. -/
def modifyRow (s : Screen) (y : Nat) (f : BitVec s.width → BitVec s.width) : Screen :=
  if h : y < s.height then { s with rows := s.rows.set y (f s.rows[y]) } else s

/-- The screen with the pixel in column `x` of row `y` lit. -/
def light (s : Screen) (x y : Nat) : Screen :=
  s.modifyRow y (· ||| (BitVec.twoPow _ (s.width - 1) >>> x))

/-- The pixels, row after row. -/
def pixels (s : Screen) : List Bool :=
  (List.range s.height).flatMap fun y => (List.range s.width).map fun x => s.pixel x y

/-! ## Scrolling -/

/-- The screen moved down by `n` rows. -/
def scrollDown (s : Screen) (n : Nat) : Screen :=
  ofRows s.resolution fun y => if n ≤ y then s.row (y - n) else 0

/-- The screen moved to the right by four pixels. -/
def scrollRight (s : Screen) : Screen :=
  ofRows s.resolution fun y => s.row y >>> 4

/-- The screen moved to the left by four pixels. -/
def scrollLeft (s : Screen) : Screen :=
  ofRows s.resolution fun y => s.row y <<< 4

/-! ## Pixels of the operations -/

theorem row_ofRows {r : Resolution} {f : Nat → BitVec r.width} {y : Nat} (h : y < r.height) :
    (ofRows r f).row y = f y := by
  have h' : y < (ofRows r f).height := h
  simp only [row, h', dif_pos]
  exact Vector.getElem_ofFn h

theorem row_eq_zero {s : Screen} {y : Nat} (h : s.height ≤ y) : s.row y = 0 :=
  dif_neg (Nat.not_lt.2 h)

theorem pixel_ofRows {r : Resolution} {f : Nat → BitVec r.width} {x y : Nat} :
    (ofRows r f).pixel x y = (decide (y < r.height) && (f y).getMsbD x) := by
  by_cases h : y < r.height
  · rw [pixel, row_ofRows h, decide_eq_true h, Bool.true_and]
    rfl
  · have h' : (ofRows r f).height ≤ y := Nat.not_lt.1 h
    simp [pixel, row_eq_zero h', h]

theorem resolution_modifyRow (s : Screen) (y : Nat) (f : BitVec s.width → BitVec s.width) :
    (s.modifyRow y f).resolution = s.resolution := by
  unfold modifyRow
  split <;> rfl

theorem pixel_eq_false_of_height_le {s : Screen} {x y : Nat} (h : s.height ≤ y) :
    s.pixel x y = false := by
  simp [pixel, row_eq_zero h]

theorem pixel_eq_false_of_width_le {s : Screen} {x y : Nat} (h : s.width ≤ x) :
    s.pixel x y = false := by
  simp [pixel, BitVec.getMsbD, Nat.not_lt.2 h]

@[simp] theorem pixel_dark (r : Resolution) (x y : Nat) : (dark r).pixel x y = false := by
  simp [dark, filled, pixel_ofRows]

theorem pixel_scrollDown (s : Screen) (n x y : Nat) :
    (s.scrollDown n).pixel x y = (decide (y < s.height ∧ n ≤ y) && s.pixel x (y - n)) := by
  rw [scrollDown, pixel_ofRows]
  by_cases h : n ≤ y <;> simp [h, pixel]

theorem pixel_scrollRight (s : Screen) (x y : Nat) :
    s.scrollRight.pixel x y = (decide (x < s.width ∧ 4 ≤ x) && s.pixel (x - 4) y) := by
  rw [scrollRight, pixel_ofRows]
  by_cases hy : y < s.height
  · by_cases hx : x < s.width
    · by_cases h4 : 4 ≤ x <;> simp [hy, hx, h4, pixel, BitVec.getMsbD_ushiftRight]
    · simp [hx, BitVec.getMsbD_ushiftRight]
  · simp [hy, pixel_eq_false_of_height_le (Nat.not_lt.1 hy)]

theorem pixel_scrollLeft (s : Screen) (x y : Nat) :
    s.scrollLeft.pixel x y = s.pixel (x + 4) y := by
  rw [scrollLeft, pixel_ofRows]
  by_cases hy : y < s.height
  · simp [hy, pixel]
  · simp [hy, pixel_eq_false_of_height_le (Nat.not_lt.1 hy)]

theorem length_pixels (s : Screen) : s.pixels.length = s.height * s.width := by
  simp only [pixels, List.length_flatMap, List.length_map, List.length_range, List.map_const',
    List.sum_replicate_nat]

end Screen

end ChipEight
