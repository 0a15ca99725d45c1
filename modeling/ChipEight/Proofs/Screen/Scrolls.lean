/-
The pixels of a scrolled screen as a list, and screens that are scrolled more than once.

Main statements:
* `pixels_scrollDown`: dark rows come in at the top, and as many rows are lost at the bottom;
* `rowPixels_scrollRight`, `rowPixels_scrollLeft`: four dark pixels come into every row;
* `scrollDown_scrollDown`: the rows by which a screen is moved down add up;
* `scrollRight_scrollDown`, `scrollLeft_scrollDown`: it does not matter whether a screen is moved
  down or to a side first.
-/
import ChipEight.Proofs.Screen.Pixels

namespace ChipEight.Screen

theorem pixels_dark (r : Resolution) :
    (dark r).pixels = List.replicate (r.height * r.width) false := by
  refine (eq_pixels List.length_replicate fun y (hy : y < r.height) x (hx : x < r.width) => ?_).symm
  rw [pixel_dark]
  exact List.getElem?_replicate_of_lt (place_lt hx hy)

theorem pixels_scrollDown (s : Screen) (n : Nat) :
    (s.scrollDown n).pixels =
      List.replicate (min n s.height * s.width) false ++
        s.pixels.take (s.pixels.length - min n s.height * s.width) := by
  have hm : min n s.height * s.width ≤ s.height * s.width :=
    Nat.mul_le_mul_right _ (Nat.min_le_right ..)
  symm
  apply eq_pixels
  · change _ = s.height * s.width
    rw [List.length_append, List.length_replicate, List.length_take, length_pixels]
    omega
  · intro y (hy : y < s.height) x (hx : x < s.width)
    have hplace := place_lt hx hy
    change _[y * s.width + x]? = _
    rw [pixel_scrollDown]
    by_cases hn : n ≤ y
    · have hmin : min n s.height = n := by omega
      have hle : n * s.width ≤ y * s.width := Nat.mul_le_mul_right _ hn
      have hsub : y * s.width + x - n * s.width = (y - n) * s.width + x := by
        rw [Nat.sub_mul]
        omega
      rw [hmin, List.getElem?_append_right (by rw [List.length_replicate]; omega),
        List.length_replicate, hsub, List.getElem?_take_of_lt (by rw [length_pixels]; omega),
        getElem?_pixels hx (by omega)]
      simp [hy, hn]
    · have hlt : y * s.width + x < min n s.height * s.width := place_lt hx (by omega)
      rw [List.getElem?_append_left (by rwa [List.length_replicate]),
        List.getElem?_replicate_of_lt hlt]
      simp [hn]

theorem rowPixels_scrollRight (s : Screen) (y : Nat) :
    s.scrollRight.rowPixels y = List.replicate 4 false ++ (s.rowPixels y).take (s.width - 4) := by
  have hw : 4 ≤ s.width := by
    cases hr : s.resolution <;> simp [width, hr, Resolution.width]
  apply List.ext_getElem
  · rw [length_rowPixels, List.length_append, List.length_replicate, List.length_take,
      length_rowPixels]
    change s.width = _
    omega
  · intro x hx hx'
    have hx : x < s.width := by rwa [length_rowPixels] at hx
    by_cases h4 : 4 ≤ x
    · rw [List.getElem_append_right (by rwa [List.length_replicate])]
      simp [rowPixels, pixel_scrollRight, hx, h4]
    · rw [List.getElem_append_left (by rw [List.length_replicate]; omega)]
      simp [rowPixels, pixel_scrollRight, h4, -List.reduceReplicate]

theorem rowPixels_scrollLeft (s : Screen) (y : Nat) :
    s.scrollLeft.rowPixels y = (s.rowPixels y).drop 4 ++ List.replicate 4 false := by
  have hw : 4 ≤ s.width := by
    cases hr : s.resolution <;> simp [width, hr, Resolution.width]
  apply List.ext_getElem
  · rw [length_rowPixels, List.length_append, List.length_replicate, List.length_drop,
      length_rowPixels]
    change s.width = _
    omega
  · intro x hx hx'
    have hx : x < s.width := by rwa [length_rowPixels] at hx
    by_cases h4 : x + 4 < s.width
    · rw [List.getElem_append_left (by rw [List.length_drop, length_rowPixels]; omega)]
      simp [rowPixels, pixel_scrollLeft, Nat.add_comm]
    · rw [List.getElem_append_right (by rw [List.length_drop, length_rowPixels]; omega)]
      simp [rowPixels, pixel_scrollLeft, pixel_eq_false_of_width_le (Nat.not_lt.1 h4),
        -List.reduceReplicate]

/-! ## Scrolling more than once -/

theorem scrollDown_zero (s : Screen) : s.scrollDown 0 = s := by
  refine ext_pixel rfl fun y (hy : y < s.height) x _ => ?_
  simp [pixel_scrollDown, hy]

theorem scrollDown_scrollDown (s : Screen) (m n : Nat) :
    (s.scrollDown m).scrollDown n = s.scrollDown (m + n) := by
  refine ext_pixel rfl fun y (hy : y < s.height) x _ => ?_
  have hheight : (s.scrollDown m).height = s.height := rfl
  have hplace : y - n - m = y - (m + n) := by omega
  have hrows : (y < s.height ∧ n ≤ y) ∧ (y - n < s.height ∧ m ≤ y - n) ↔
      y < s.height ∧ m + n ≤ y := by omega
  rw [pixel_scrollDown, pixel_scrollDown, pixel_scrollDown, hheight, hplace, ← Bool.and_assoc,
    ← Bool.decide_and, decide_eq_decide.2 hrows]

theorem scrollRight_scrollDown (s : Screen) (n : Nat) :
    (s.scrollDown n).scrollRight = s.scrollRight.scrollDown n := by
  refine ext_pixel rfl fun y _ x _ => ?_
  have hwidth : (s.scrollDown n).width = s.width := rfl
  have hheight : s.scrollRight.height = s.height := rfl
  rw [pixel_scrollRight, pixel_scrollDown, pixel_scrollDown, pixel_scrollRight, hwidth, hheight,
    Bool.and_left_comm]

theorem scrollLeft_scrollDown (s : Screen) (n : Nat) :
    (s.scrollDown n).scrollLeft = s.scrollLeft.scrollDown n := by
  refine ext_pixel rfl fun y _ x _ => ?_
  have hheight : s.scrollLeft.height = s.height := rfl
  rw [pixel_scrollLeft, pixel_scrollDown, pixel_scrollDown, pixel_scrollLeft, hheight]

end ChipEight.Screen
