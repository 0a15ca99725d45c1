/-
Scrolling.

A program can move the screen down by some rows, and to either side by four pixels.  What is moved
beyond an edge is lost, and dark pixels come in at the opposite one, so no pixel gets into another
row from the side.  The pixels lie row after row in one list, of which the length stays.

Main statements:
* `Cpu.perform_scrollDown`, `Cpu.perform_scrollRight`, `Cpu.perform_scrollLeft`: what the
  instructions do to the processor;
* `Cpu.foldl_scrollDown`: scrolling down again and again;
* `Cpu.scrolls_move_pixels`: where the pixels of the list come from.
-/
import ChipEight.Cpu.Step
import ChipEight.Proofs.Screen.Scrolls
import Mathlib.Algebra.GroupWithZero.Nat

namespace ChipEight

namespace Screen

variable {s : Screen} {n x y : Nat}

/-! ## Places in the list -/

/-- What stands in the list of the pixels at the place for column `x` of row `y`. -/
def pixelAt (s : Screen) (x y : Nat) : Option Bool :=
  s.pixels[y * s.width + x]?

theorem pixelAt_eq (hx : x < s.width) (hy : y < s.height) : s.pixelAt x y = some (s.pixel x y) :=
  getElem?_pixels hx hy

theorem pixelAt_scrollDown (hx : x < s.width) (hy : y < s.height) :
    (s.scrollDown n).pixelAt x y = if n ≤ y then s.pixelAt x (y - n) else some false := by
  have hmoved : (s.scrollDown n).pixelAt x y = _ := pixelAt_eq (s := s.scrollDown n) hx hy
  rw [hmoved, pixel_scrollDown]
  by_cases hn : n ≤ y
  · rw [if_pos hn, pixelAt_eq hx (by omega), decide_eq_true ⟨hy, hn⟩, Bool.true_and]
  · rw [if_neg hn, decide_eq_false fun h => hn h.2, Bool.false_and]

theorem pixelAt_scrollRight (hx : x < s.width) (hy : y < s.height) :
    s.scrollRight.pixelAt x y = if 4 ≤ x then s.pixelAt (x - 4) y else some false := by
  have hmoved : s.scrollRight.pixelAt x y = _ := pixelAt_eq (s := s.scrollRight) hx hy
  rw [hmoved, pixel_scrollRight]
  by_cases h4 : 4 ≤ x
  · rw [if_pos h4, pixelAt_eq (by omega) hy, decide_eq_true ⟨hx, h4⟩, Bool.true_and]
  · rw [if_neg h4, decide_eq_false fun h => h4 h.2, Bool.false_and]

theorem pixelAt_scrollLeft (hx : x < s.width) (hy : y < s.height) :
    s.scrollLeft.pixelAt x y = if x + 4 < s.width then s.pixelAt (x + 4) y else some false := by
  have hmoved : s.scrollLeft.pixelAt x y = _ := pixelAt_eq (s := s.scrollLeft) hx hy
  rw [hmoved, pixel_scrollLeft]
  by_cases h4 : x + 4 < s.width
  · rw [if_pos h4, pixelAt_eq h4 hy]
  · rw [if_neg h4, pixel_eq_false_of_width_le (Nat.not_lt.1 h4)]

end Screen

namespace Cpu

/-! ## The instructions -/

/-- To move the screen down changes nothing else. -/
theorem perform_scrollDown (c : Cpu) (n : Nat) :
    c.perform ⟨.scd, [(n : Int)]⟩ = { c.advance with screen := c.screen.scrollDown n } := rfl

/-- To move the screen to the right changes nothing else. -/
theorem perform_scrollRight (c : Cpu) :
    c.perform ⟨.scr, []⟩ = { c.advance with screen := c.screen.scrollRight } := rfl

/-- To move the screen to the left changes nothing else. -/
theorem perform_scrollLeft (c : Cpu) :
    c.perform ⟨.scl, []⟩ = { c.advance with screen := c.screen.scrollLeft } := rfl

/-- The rows by which the screen is moved down add up. -/
theorem foldl_scrollDown (c : Cpu) (ns : List Nat) :
    (ns.foldl (fun u n => u.perform ⟨.scd, [(n : Int)]⟩) c).screen =
      c.screen.scrollDown ns.sum := by
  induction ns generalizing c with
  | nil => exact c.screen.scrollDown_zero.symm
  | cons n ns ih =>
    rw [List.foldl_cons, ih, perform_scrollDown, Screen.scrollDown_scrollDown, List.sum_cons]

/-- After the screen is moved down by `n` rows each pixel is the one that stood `n` rows above it,
after it is moved to the right the one that stood four columns to the left of it, and after it is
moved to the left the one that stood four columns to the right of it; where there was none, the
pixel is dark.  The list of the pixels is as long as before.  It does not matter whether the screen
is moved down or to a side first, and moving it down again and again moves it by all the rows
together. -/
theorem scrolls_move_pixels (c : Cpu) :
    let s := c.screen
    let down (n : Nat) := (c.perform ⟨.scd, [(n : Int)]⟩).screen
    let right := (c.perform ⟨.scr, []⟩).screen
    let left := (c.perform ⟨.scl, []⟩).screen
    (∀ y < s.height, ∀ x < s.width,
      (∀ n, (down n).pixelAt x y = if n ≤ y then s.pixelAt x (y - n) else some false) ∧
      right.pixelAt x y = (if 4 ≤ x then s.pixelAt (x - 4) y else some false) ∧
      left.pixelAt x y = (if x + 4 < s.width then s.pixelAt (x + 4) y else some false)) ∧
    (∀ t, (∃ n, t = down n) ∨ t = right ∨ t = left →
      t.resolution = s.resolution ∧ t.pixels.length = s.pixels.length) ∧
    (∀ n : Nat, (c.perform ⟨.scd, [(n : Int)]⟩).perform ⟨.scr, []⟩ =
        (c.perform ⟨.scr, []⟩).perform ⟨.scd, [(n : Int)]⟩ ∧
      (c.perform ⟨.scd, [(n : Int)]⟩).perform ⟨.scl, []⟩ =
        (c.perform ⟨.scl, []⟩).perform ⟨.scd, [(n : Int)]⟩) ∧
    ∀ ns : List Nat, (ns.foldl (fun u n => u.perform ⟨.scd, [(n : Int)]⟩) c).screen =
      down ns.sum := by
  intro s down right left
  refine ⟨fun y hy x hx => ⟨fun n => ?_, ?_, ?_⟩, fun t ht => ?_, fun n => ⟨?_, ?_⟩, fun ns => ?_⟩
  · exact Screen.pixelAt_scrollDown hx hy
  · exact Screen.pixelAt_scrollRight hx hy
  · exact Screen.pixelAt_scrollLeft hx hy
  · have hresolution : t.resolution = s.resolution := by
      rcases ht with ⟨n, rfl⟩ | rfl | rfl <;> rfl
    refine ⟨hresolution, ?_⟩
    rw [Screen.length_pixels, Screen.length_pixels, Screen.height, Screen.width, hresolution]
  · rw [perform_scrollDown, perform_scrollRight, perform_scrollRight, perform_scrollDown,
      Screen.scrollRight_scrollDown]
    rfl
  · rw [perform_scrollDown, perform_scrollLeft, perform_scrollLeft, perform_scrollDown,
      Screen.scrollLeft_scrollDown]
    rfl
  · exact foldl_scrollDown c ns

end Cpu

end ChipEight
