/-
Where the bits of a sprite land on the screen.

Main statements:
* `getMsbD_placed_iff`: a row of the screen gets a bit in the columns on which bits of the sprite
  row land;
* `pixel_modifyRow`: what changing a row does to the pixels;
* `Drawing.drawRows_of_height_le`: rows below the screen are left out if sprites do not wrap.
-/
import ChipEight.Screen.Sprite
import Mathlib.Data.Nat.Basic

namespace ChipEight.Screen

/-! ## Columns -/

theorem landing_of_lt {n : Nat} {wrap : Bool} {k : Nat} (h : k < n) :
    landing n wrap k = some k :=
  if_pos h

theorem landing_clipped {n k : Nat} (h : n ≤ k) : landing n false k = none := by
  simp [landing, Nat.not_lt.2 h]

/-- What wraps around the edge once is moved back by the size of the screen. -/
theorem landing_wrapped {n k : Nat} (h : n ≤ k) (h' : k < 2 * n) :
    landing n true k = some (k - n) := by
  have hmod : k % n = k - n := by
    rw [Nat.mod_eq_sub_mod h, Nat.mod_eq_of_lt (by omega)]
  simp [landing, Nat.not_lt.2 h, hmod]

theorem lt_of_landing {n k j : Nat} {wrap : Bool} (hn : 0 < n)
    (h : landing n wrap k = some j) : j < n := by
  rw [landing] at h
  split at h
  · cases h
    assumption
  · split at h
    · cases h
      exact Nat.mod_lt _ hn
    · cases h

/-- Two columns of a sprite that is no wider than the screen land apart. -/
theorem landing_inj {n x a b j : Nat} {wrap : Bool} (hx : x < n) (ha : a < n) (hb : b < n)
    (h : landing n wrap (x + a) = some j) (h' : landing n wrap (x + b) = some j) : a = b := by
  cases wrap with
  | false =>
    by_cases hxa : x + a < n <;> by_cases hxb : x + b < n <;> simp [landing, hxa, hxb] at h h'
    omega
  | true =>
    by_cases hxa : x + a < n <;> by_cases hxb : x + b < n
    · rw [landing_of_lt hxa] at h
      rw [landing_of_lt hxb] at h'
      simp only [Option.some.injEq] at h h'
      omega
    · rw [landing_of_lt hxa] at h
      rw [landing_wrapped (by omega) (by omega)] at h'
      simp only [Option.some.injEq] at h h'
      omega
    · rw [landing_wrapped (by omega) (by omega)] at h
      rw [landing_of_lt hxb] at h'
      simp only [Option.some.injEq] at h h'
      omega
    · rw [landing_wrapped (by omega) (by omega)] at h
      rw [landing_wrapped (by omega) (by omega)] at h'
      simp only [Option.some.injEq] at h h'
      omega

section Placed

variable {k w : Nat} {x : Nat} (bits : BitVec k) (hk : k ≤ w) (hx : x < w)
include hk

theorem getMsbD_left (i : Nat) :
    (bits.setWidth w <<< (w - k)).getMsbD i = bits.getMsbD i := by
  rw [BitVec.getMsbD_shiftLeft, BitVec.getMsbD_setWidth]
  have h1 : w - k ≤ i + (w - k) := by omega
  have h2 : i + (w - k) + k - w = i := by omega
  simp [h1, h2]

theorem getMsbD_placed_clipped (i : Nat) :
    (placed w false x bits).getMsbD i = (decide (i < w ∧ x ≤ i) && bits.getMsbD (i - x)) := by
  simp only [placed, Bool.false_eq_true, if_false]
  rw [BitVec.getMsbD_ushiftRight, getMsbD_left bits hk]
  by_cases hi : i < w <;> by_cases hxi : x ≤ i <;> simp [hi, hxi]

include hx

theorem getMsbD_placed_wrapped (i : Nat) :
    (placed w true x bits).getMsbD i =
      (decide (i < w) && bits.getMsbD (if i < x then w + i - x else i - x)) := by
  simp only [placed, if_true]
  rw [BitVec.getMsbD_rotateRight, Nat.mod_eq_of_lt hx]
  by_cases hix : i < x
  · have hmod : (w + i - x) % w = w + i - x := Nat.mod_eq_of_lt (by omega)
    simp only [hix, if_true, hmod, getMsbD_left bits hk]
  · simp only [hix, if_false, getMsbD_left bits hk]

/-- A row of the screen gets a bit in the columns on which bits of the sprite row land. -/
theorem getMsbD_placed_iff (wrap : Bool) (i : Nat) :
    (placed w wrap x bits).getMsbD i ↔
      ∃ c < k, bits.getMsbD c ∧ landing w wrap (x + c) = some i := by
  cases wrap with
  | false =>
    rw [getMsbD_placed_clipped bits hk, Bool.and_eq_true, decide_eq_true_eq]
    constructor
    · rintro ⟨⟨hi, hxi⟩, hb⟩
      refine ⟨i - x, BitVec.lt_of_getMsbD hb, hb, ?_⟩
      rw [Nat.add_sub_cancel' hxi, landing_of_lt hi]
    · rintro ⟨c, hc, hb, hl⟩
      by_cases hxc : x + c < w
      · rw [landing_of_lt hxc, Option.some.injEq] at hl
        subst hl
        exact ⟨⟨hxc, by omega⟩, by rwa [Nat.add_sub_cancel_left]⟩
      · rw [landing_clipped (by omega)] at hl
        cases hl
  | true =>
    rw [getMsbD_placed_wrapped bits hk hx, Bool.and_eq_true, decide_eq_true_eq]
    constructor
    · rintro ⟨hi, hb⟩
      by_cases hix : i < x
      · rw [if_pos hix] at hb
        refine ⟨w + i - x, BitVec.lt_of_getMsbD hb, hb, ?_⟩
        rw [landing_wrapped (by omega) (by omega), Option.some.injEq]
        omega
      · rw [if_neg hix] at hb
        refine ⟨i - x, BitVec.lt_of_getMsbD hb, hb, ?_⟩
        rw [landing_of_lt (by omega), Option.some.injEq]
        omega
    · rintro ⟨c, hc, hb, hl⟩
      by_cases hxc : x + c < w
      · rw [landing_of_lt hxc, Option.some.injEq] at hl
        subst hl
        exact ⟨hxc, by rwa [if_neg (by omega), Nat.add_sub_cancel_left]⟩
      · rw [landing_wrapped (by omega) (by omega), Option.some.injEq] at hl
        subst hl
        refine ⟨by omega, ?_⟩
        rw [if_pos (by omega)]
        rwa [show w + (x + c - w) - x = c by omega]

end Placed

/-! ## Rows -/

/-- Rows of pixels that meet have a pixel in common. -/
theorem and_ne_zero_iff {w : Nat} (a b : BitVec w) :
    a &&& b ≠ 0 ↔ ∃ i, a.getMsbD i ∧ b.getMsbD i := by
  constructor
  · intro h
    by_contra hall
    refine h (BitVec.eq_of_getMsbD_eq fun i _ => ?_)
    rw [BitVec.getMsbD_and]
    cases ha : a.getMsbD i with
    | false => simp
    | true => cases hb : b.getMsbD i with
      | false => simp
      | true => exact absurd ⟨i, ha, hb⟩ hall
  · rintro ⟨i, ha, hb⟩ h
    have hi := congrArg (BitVec.getMsbD · i) h
    simp [ha, hb] at hi

theorem pixel_modifyRow {s : Screen} {y : Nat} (hy : y < s.height)
    (f : BitVec s.width → BitVec s.width) (x y' : Nat) :
    (s.modifyRow y f).pixel x y' = if y' = y then (f (s.row y)).getMsbD x else s.pixel x y' := by
  rw [modifyRow, dif_pos hy]
  by_cases hy' : y' < s.height
  · by_cases he : y' = y
    · subst he
      simp [pixel, row, height, hy]
    · simp [pixel, row, height, hy', he, Vector.getElem_set_ne, Ne.symm he]
  · have he : y' ≠ y := by omega
    have hout : s.height ≤ y' := Nat.not_lt.1 hy'
    rw [if_neg he, pixel_eq_false_of_height_le hout]
    exact pixel_eq_false_of_height_le (s := { s with rows := _ }) hout

theorem Drawing.drawRows_of_height_le {k : Nat} (d : Drawing) (x : Nat) {y : Nat}
    (hy : d.screen.height ≤ y) (rows : List (BitVec k)) : d.drawRows false x y rows = d := by
  induction rows generalizing y with
  | nil => rfl
  | cons bits rows ih =>
    have hd : d.drawRow false x y bits = d := by
      simp only [drawRow, landing_clipped hy]
    rw [drawRows, hd, ih (by omega)]

end ChipEight.Screen
