/-
Breakpoints: a set of addresses of sixteen bits, kept in ascending order.

Main statements: `mem_insert` and `mem_erase`, the members after a change.
-/
import ChipEight.Cpu.Basic

namespace ChipEight

/-- The addresses at which the machine halts. -/
structure Breakpoints where
  /-- The addresses, ascending. -/
  toList : List Int
  deriving DecidableEq, Repr

namespace Breakpoints

/-- No breakpoints. -/
def empty : Breakpoints :=
  ⟨[]⟩

instance : Membership Int Breakpoints where
  mem b a := a ∈ b.toList

instance (b : Breakpoints) (a : Int) : Decidable (a ∈ b) :=
  inferInstanceAs (Decidable (a ∈ b.toList))

/-- Put an address into an ascending list, unless it is there. -/
def insertSorted (a : Int) : List Int → List Int
  | [] => [a]
  | b :: s => if a < b then a :: b :: s else if a = b then b :: s else b :: insertSorted a s

/-- The breakpoints with one more, at the sixteen bits of a number. -/
def insert (b : Breakpoints) (a : Int) : Breakpoints :=
  ⟨insertSorted (Cpu.address16 a) b.toList⟩

/-- The breakpoints without the one at the sixteen bits of a number. -/
def erase (b : Breakpoints) (a : Int) : Breakpoints :=
  ⟨b.toList.filter (· ≠ Cpu.address16 a)⟩

theorem mem_insertSorted {a c : Int} {s : List Int} : c ∈ insertSorted a s ↔ c = a ∨ c ∈ s := by
  induction s with
  | nil => simp [insertSorted]
  | cons b s ih =>
    unfold insertSorted
    split
    · simp
    · split
      · subst_vars; simp
      · simp only [List.mem_cons, ih]
        exact or_left_comm

theorem mem_insert {b : Breakpoints} {a c : Int} :
    c ∈ b.insert a ↔ c = Cpu.address16 a ∨ c ∈ b :=
  mem_insertSorted

theorem mem_erase {b : Breakpoints} {a c : Int} :
    c ∈ b.erase a ↔ c ∈ b ∧ c ≠ Cpu.address16 a := by
  show c ∈ b.toList.filter _ ↔ c ∈ b.toList ∧ _
  simp

end Breakpoints

end ChipEight
