/-
Pixels as text: a row of pixels becomes a line of blocks and spaces.

Main statement: `flatten_chunks`, cutting into rows loses nothing.
-/
import ChipEight.Screen.Basic

namespace ChipEight

/-- The list in pieces of `width` elements, of which the last may be shorter. -/
def chunks {α : Type} (width : Nat) (h : 0 < width) (s : List α) : List (List α) :=
  match s with
  | [] => []
  | a :: s => (a :: s).take width :: chunks width h ((a :: s).drop width)
  termination_by s.length
  decreasing_by
    simp only [List.length_drop, List.length_cons]
    omega

theorem flatten_chunks {α : Type} {width : Nat} (h : 0 < width) (s : List α) :
    (chunks width h s).flatten = s := by
  fun_induction chunks width h s with
  | case1 => rfl
  | case2 a s ih => rw [List.flatten_cons, ih, List.take_append_drop]

namespace Screen

/-- The character of a pixel. -/
def pixelChar (lit : Bool) : Char :=
  if lit then '█' else ' '

/-- Pixels cannot be cut into rows of no width. -/
structure NoWidth where

/-- The wording of the error. -/
def NoWidth.message (_ : NoWidth) : String :=
  "range() arg 3 must not be zero"

/-- The pixels as lines of `width` characters. -/
def lines (pixels : List Bool) (width : Nat) (h : 0 < width) : List (List Char) :=
  (chunks width h pixels).map (·.map pixelChar)

/-- The pixels as text, a line for each row of `width` pixels; nothing if the width is
negative. -/
def renderText (pixels : List Bool) (width : Int) : Except NoWidth (List Char) :=
  if h : 0 < width.toNat then .ok (['\n'].intercalate (lines pixels width.toNat h))
  else if width = 0 then .error {}
  else .ok []

/-- The screen as lines of text. -/
def textLines (s : Screen) : List (List Char) :=
  lines s.pixels s.width s.resolution.width_pos

/-- The screen as text. -/
def text (s : Screen) : List Char :=
  ['\n'].intercalate s.textLines

end Screen

end ChipEight
