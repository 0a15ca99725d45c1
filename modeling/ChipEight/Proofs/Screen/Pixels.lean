/-
The pixels of a screen as a list, row after row.

Main statements:
* `getElem?_pixels`: the pixel at a place of the list;
* `eq_pixels`: a list with the right pixels at the right places is the list of the pixels;
* `pixels_ofPixels`: every list of the right length is the list of the pixels of a screen;
* `flatMap_chunks_pixels`: what is done to the pieces of the width of a row is done to the rows.
-/
import ChipEight.Screen.Render
import Mathlib.Data.List.GetD

namespace ChipEight

namespace Screen

/-! ## Places -/

theorem place_lt {w h x y : Nat} (hx : x < w) (hy : y < h) : y * w + x < h * w := by
  have : (y + 1) * w ≤ h * w := Nat.mul_le_mul_right w hy
  rw [Nat.succ_mul] at this
  omega

theorem place_inj {w x x' y y' : Nat} (hx : x < w) (hx' : x' < w)
    (h : y * w + x = y' * w + x') : x = x' ∧ y = y' := by
  have hw : 0 < w := by omega
  have hmod := congrArg (· % w) h
  have hdiv := congrArg (· / w) h
  simp only [Nat.mul_add_mod_of_lt hx, Nat.mul_add_mod_of_lt hx'] at hmod
  simp only [Nat.mul_comm _ w, Nat.mul_add_div hw, Nat.div_eq_of_lt hx, Nat.div_eq_of_lt hx',
    Nat.add_zero] at hdiv
  exact ⟨hmod, hdiv⟩

theorem flatMap_range_eq_map {α : Type} (w h : Nat) (f : Nat → Nat → α) :
    ((List.range h).flatMap fun y => (List.range w).map fun x => f x y) =
      (List.range (h * w)).map fun j => f (j % w) (j / w) := by
  induction h with
  | zero => simp
  | succ h ih =>
    rw [List.range_succ, List.flatMap_append, ih, Nat.succ_mul, List.range_add, List.map_append]
    congr 1
    simp only [List.flatMap_cons, List.flatMap_nil, List.append_nil, List.map_map]
    refine List.map_congr_left fun x hx => ?_
    have hx : x < w := List.mem_range.1 hx
    have hw : 0 < w := by omega
    rw [Function.comp_apply, Nat.mul_add_mod_of_lt hx, Nat.mul_comm h w, Nat.mul_add_div hw,
      Nat.div_eq_of_lt hx, Nat.add_zero]

theorem pixels_eq_map (s : Screen) :
    s.pixels = (List.range (s.height * s.width)).map fun j => s.pixel (j % s.width) (j / s.width) :=
  flatMap_range_eq_map _ _ _

theorem getElem?_pixels {s : Screen} {x y : Nat} (hx : x < s.width) (hy : y < s.height) :
    s.pixels[y * s.width + x]? = some (s.pixel x y) := by
  have hw : 0 < s.width := by omega
  rw [pixels_eq_map, List.getElem?_map, List.getElem?_range (place_lt hx hy), Option.map_some,
    Nat.mul_add_mod_of_lt hx, Nat.mul_comm y, Nat.mul_add_div hw, Nat.div_eq_of_lt hx, Nat.add_zero]

/-- A list of the right length with the right pixels at their places is the list of the pixels. -/
theorem eq_pixels {s : Screen} {l : List Bool} (hl : l.length = s.height * s.width)
    (h : ∀ y < s.height, ∀ x < s.width, l[y * s.width + x]? = some (s.pixel x y)) :
    l = s.pixels := by
  apply List.ext_getElem?
  intro j
  by_cases hj : j < s.height * s.width
  · have hw : 0 < s.width := s.resolution.width_pos
    have hx : j % s.width < s.width := Nat.mod_lt _ hw
    have hy : j / s.width < s.height := Nat.div_lt_of_lt_mul (by rwa [Nat.mul_comm])
    have he : j / s.width * s.width + j % s.width = j := by
      rw [Nat.mul_comm]
      exact Nat.div_add_mod j s.width
    rw [← he, h _ hy _ hx, getElem?_pixels hx hy]
  · rw [List.getElem?_eq_none (by omega), List.getElem?_eq_none (by rw [length_pixels]; omega)]

/-- Screens of one resolution with the same pixels are equal. -/
theorem pixels_inj {s t : Screen} (hr : s.resolution = t.resolution) (h : s.pixels = t.pixels) :
    s = t := by
  obtain ⟨r, rows⟩ := s
  obtain ⟨r', rows'⟩ := t
  obtain rfl : r = r' := hr
  congr 1
  refine Vector.ext fun y hy => BitVec.eq_of_getMsbD_eq fun x hx => ?_
  have hp := getElem?_pixels (s := ⟨r, rows⟩) hx hy
  rw [h, getElem?_pixels (s := ⟨r, rows'⟩) hx hy, Option.some.injEq] at hp
  have hy' : y < (Screen.mk r rows).height := hy
  have hy'' : y < (Screen.mk r rows').height := hy
  simpa only [pixel, row, hy', hy'', dif_pos] using hp.symm

/-- Screens of one resolution that agree at every place are equal. -/
theorem ext_pixel {s t : Screen} (hr : s.resolution = t.resolution)
    (h : ∀ y < s.height, ∀ x < s.width, s.pixel x y = t.pixel x y) : s = t := by
  have hw : s.width = t.width := congrArg Resolution.width hr
  have hh : s.height = t.height := congrArg Resolution.height hr
  refine pixels_inj hr (eq_pixels (by rw [length_pixels, hw, hh]) fun y hy x hx => ?_)
  rw [← hw] at hx ⊢
  rw [← hh] at hy
  rw [getElem?_pixels hx hy, h y hy x hx]

/-! ## Screens from pixels -/

/-- The screen with the given pixels, row after row. -/
def ofPixels (r : Resolution) (l : List Bool) : Screen :=
  ofRows r fun y =>
    (BitVec.ofBoolListBE ((List.range r.width).map fun x => l.getD (y * r.width + x) false)).cast
      (by simp)

theorem pixel_ofPixels {r : Resolution} {l : List Bool} {x y : Nat} (hx : x < r.width)
    (hy : y < r.height) : (ofPixels r l).pixel x y = l.getD (y * r.width + x) false := by
  rw [ofPixels, pixel_ofRows, decide_eq_true hy, Bool.true_and, BitVec.getMsbD_cast,
    BitVec.getMsbD_ofBoolListBE]
  simp [List.getD_eq_getElem?_getD, hx]

theorem pixels_ofPixels {r : Resolution} {l : List Bool} (h : l.length = r.height * r.width) :
    (ofPixels r l).pixels = l := by
  refine (eq_pixels h fun y (hy : y < r.height) x (hx : x < r.width) => ?_).symm
  have hj : y * r.width + x < l.length := h ▸ place_lt hx hy
  rw [pixel_ofPixels hx hy]
  exact (List.getElem?_eq_getElem hj).trans (congrArg some (List.getD_eq_getElem l false hj).symm)

/-! ## Rows -/

/-- The pixels of a row. -/
def rowPixels (s : Screen) (y : Nat) : List Bool :=
  (List.range s.width).map fun x => s.pixel x y

@[simp] theorem length_rowPixels (s : Screen) (y : Nat) : (s.rowPixels y).length = s.width := by
  simp [rowPixels]

theorem pixels_eq_flatMap (s : Screen) : s.pixels = (List.range s.height).flatMap s.rowPixels := rfl

end Screen

theorem chunks_append {α : Type} {w : Nat} (hw : 0 < w) {a : List α} (ha : a.length = w)
    (s : List α) : chunks w hw (a ++ s) = a :: chunks w hw s := by
  obtain ⟨b, a, rfl⟩ := List.exists_cons_of_length_pos (ha ▸ hw)
  rw [List.cons_append, chunks, ← List.cons_append, List.take_left' ha, List.drop_left' ha]

theorem chunks_flatMap {α β : Type} {w : Nat} (hw : 0 < w) {f : β → List α}
    (hf : ∀ b, (f b).length = w) (s : List β) : chunks w hw (s.flatMap f) = s.map f := by
  induction s with
  | nil => rw [List.flatMap_nil, List.map_nil, chunks]
  | cons b s ih => rw [List.flatMap_cons, chunks_append hw (hf b), ih, List.map_cons]

/-- What is done to the pieces of the width of a row is done to the rows. -/
theorem Screen.flatMap_chunks_pixels (s : Screen) (g : List Bool → List Bool) :
    (chunks s.width s.resolution.width_pos s.pixels).flatMap g =
      (List.range s.height).flatMap fun y => g (s.rowPixels y) := by
  rw [pixels_eq_flatMap, chunks_flatMap _ s.length_rowPixels, List.flatMap_map]

end ChipEight
