/-
Sprites: how their rows are placed on the screen, and what drawing them does.

A sprite is drawn by flipping pixels.  A row that leaves the screen at the right is clipped, or
wraps around to the left; a row below the last one is left out, or wraps around to the top.

Main statement: `Drawing.resolution_drawRows`, drawing does not change the resolution.
-/
import ChipEight.Screen.Basic

namespace ChipEight.Screen

/-- The bits of a sprite row as they lie in a row of the screen, the leftmost of them in column
`x`. -/
def placed {k : Nat} (width : Nat) (wrap : Bool) (x : Nat) (bits : BitVec k) : BitVec width :=
  let left := bits.setWidth width <<< (width - k)
  if wrap then left.rotateRight x else left >>> x

/-- The row of the screen on which row `y` of a drawing lands. -/
def landing (height : Nat) (wrap : Bool) (y : Nat) : Option Nat :=
  if y < height then some y else if wrap then some (y % height) else none

/-- A screen that is drawn on, with the number of sprite rows so far that made a lit pixel
dark. -/
structure Drawing where
  /-- The screen. -/
  screen : Screen
  /-- The number of rows that made a lit pixel dark. -/
  collisions : Nat

namespace Drawing

/-- Draw one row of a sprite. -/
def drawRow {k : Nat} (d : Drawing) (wrap : Bool) (x y : Nat) (bits : BitVec k) : Drawing :=
  match landing d.screen.height wrap y with
  | none => d
  | some y =>
    let mask := placed d.screen.width wrap x bits
    let collisions := if d.screen.row y &&& mask = 0 then d.collisions else d.collisions + 1
    ⟨d.screen.modifyRow y (· ^^^ mask), collisions⟩

/-- Draw the rows of a sprite from row `y` on. -/
def drawRows {k : Nat} (d : Drawing) (wrap : Bool) (x y : Nat) : List (BitVec k) → Drawing
  | [] => d
  | bits :: rest => (d.drawRow wrap x y bits).drawRows wrap x (y + 1) rest

theorem resolution_drawRow {k : Nat} (d : Drawing) (wrap : Bool) (x y : Nat) (bits : BitVec k) :
    (d.drawRow wrap x y bits).screen.resolution = d.screen.resolution := by
  unfold drawRow
  split
  · rfl
  · exact resolution_modifyRow _ _ _

theorem resolution_drawRows {k : Nat} (d : Drawing) (wrap : Bool) (x y : Nat)
    (rows : List (BitVec k)) :
    (d.drawRows wrap x y rows).screen.resolution = d.screen.resolution := by
  induction rows generalizing d y with
  | nil => rfl
  | cons bits rest ih => rw [drawRows, ih, resolution_drawRow]

end Drawing

/-- Draw the rows of a sprite with the top left corner in column `x` of row `y`. -/
def draw {k : Nat} (s : Screen) (wrap : Bool) (x y : Nat) (rows : List (BitVec k)) : Drawing :=
  Drawing.drawRows ⟨s, 0⟩ wrap x y rows

/-- How many of the rows of a large sprite count as lying below the screen: all that wrap
around, but only the first that is clipped. -/
def overhang (height : Nat) (wrap : Bool) (y : Nat) : Nat :=
  let below := y + 16 - height
  if wrap then below else min 1 below

end ChipEight.Screen
