/-
Classes of characters given by runs of code points.

A class is written as the ascending list of the code points at which membership changes: the
class starts at the first, ends before the second, starts again at the third, and so on.
-/
namespace ChipEight

/-- A class of characters, as the ascending list of the code points where membership changes. -/
structure CharClass where
  /-- The code points where membership changes. -/
  bounds : List Nat

namespace CharClass

/-- Whether `n` lies in a run of the ascending list of bounds. -/
def inRuns : List Nat → Nat → Bool
  | [], _ => false
  | b :: bs, n => if n < b then false else !inRuns bs n

/-- Whether the class holds the character. -/
def contains (k : CharClass) (c : Char) : Bool :=
  inRuns k.bounds c.toNat

end CharClass

end ChipEight
