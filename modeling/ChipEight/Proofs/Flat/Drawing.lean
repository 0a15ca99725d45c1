/-
Sprites drawn pixel by pixel on a processor laid out flat look like sprites drawn row by row.

A row of a sprite is drawn bit by bit.  After some of its columns the row of the screen differs
from what it was by a mask, which has a bit wherever one of these columns landed; the row collided
if the mask meets a lit pixel.

Main statements:
* `blit_pixels`: the bits of a row are within the screen, and flip what the placed row flips;
* `drawRows_succ`: a row of a sprite, with the count in the flag register;
* `drawRows_flat`: all rows of a sprite;
* `drawSprite_flat`: a whole sprite.
-/
import ChipEight.Proofs.Flat.Simulation
import ChipEight.Proofs.Screen.Sprites

namespace ChipEight

namespace Flat

open Screen

/-! ## A row of a sprite -/

/-- Whether one of the first columns of a sprite row has a bit that lands on a column of the
screen. -/
def Landed {k : Nat} (w : Nat) (wrap : Bool) (x : Nat) (bits : BitVec k) (columns i : Nat) : Prop :=
  ∃ c < columns, bits.getMsbD c ∧ landing w wrap (x + c) = some i

theorem access_eq_ok {α : Type} {s : List α} {k : Nat} {a : α} (h : s[k]? = some a) :
    access s k = .ok a := by
  obtain ⟨hk, rfl⟩ := List.getElem?_eq_some_iff.1 h
  exact access_natCast hk

section Row

variable {k w x columns : Nat} {wrap : Bool} {bits : BitVec k}

/-- A column that lands nowhere adds nothing. -/
theorem landed_succ_of_none (h : bits.getMsbD columns = false ∨ landing w wrap (x + columns) = none)
    (i : Nat) : Landed w wrap x bits (columns + 1) i ↔ Landed w wrap x bits columns i := by
  constructor
  · rintro ⟨c, hc, hb, hl⟩
    have hne : c ≠ columns := by
      rintro rfl
      rcases h with h | h
      · rw [hb] at h
        cases h
      · rw [hl] at h
        cases h
    exact ⟨c, by omega, hb, hl⟩
  · rintro ⟨c, hc, hb, hl⟩
    exact ⟨c, by omega, hb, hl⟩

theorem landed_succ_of_some {i : Nat} (hb : bits.getMsbD columns = true)
    (hl : landing w wrap (x + columns) = some i) (j : Nat) :
    Landed w wrap x bits (columns + 1) j ↔ Landed w wrap x bits columns j ∨ i = j := by
  constructor
  · rintro ⟨c, hc, hb', hl'⟩
    by_cases hcc : c = columns
    · subst hcc
      rw [hl, Option.some.injEq] at hl'
      exact .inr hl'
    · exact .inl ⟨c, by omega, hb', hl'⟩
  · rintro (⟨c, hc, hb', hl'⟩ | rfl)
    · exact ⟨c, by omega, hb', hl'⟩
    · exact ⟨columns, by omega, hb, hl⟩

/-- A column lands where none before it did. -/
theorem not_landed {i : Nat} (hx : x < w) (hc : columns < w)
    (hl : landing w wrap (x + columns) = some i) : ¬Landed w wrap x bits columns i := by
  rintro ⟨c, hlt, -, hl'⟩
  have heq := landing_inj hx (by omega) hc hl' hl
  omega

/-- What is left of a row is off the screen as soon as a column is clipped. -/
theorem landed_of_clipped (h : w ≤ x + columns) (hk : columns ≤ k) (i : Nat) :
    Landed w false x bits k i ↔ Landed w false x bits columns i := by
  constructor
  · rintro ⟨c, hc, hb, hl⟩
    by_cases hcc : c < columns
    · exact ⟨c, hcc, hb, hl⟩
    · rw [landing_clipped (by omega)] at hl
      cases hl
  · rintro ⟨c, hc, hb, hl⟩
    exact ⟨c, by omega, hb, hl⟩

theorem eq_placed {mask : BitVec w} (hk : k ≤ w) (hx : x < w)
    (h : ∀ i, mask.getMsbD i ↔ Landed w wrap x bits k i) : mask = placed w wrap x bits := by
  refine BitVec.eq_of_getMsbD_eq fun i _ => ?_
  rw [Bool.eq_iff_iff, h, getMsbD_placed_iff bits hk hx, Landed]

theorem testBit_toNat {column : Nat} (h : column < k) :
    bits.toNat.testBit (k - 1 - column) = bits.getMsbD column := by
  simp [BitVec.getMsbD, BitVec.getLsbD, h]

end Row

/-! ## Masks on a row of the screen -/

section Mask

variable {s : Screen} {y i : Nat} {mask : BitVec s.width}

theorem width_modifyRow {f : BitVec s.width → BitVec s.width} :
    (s.modifyRow y f).width = s.width := by
  rw [Screen.width, resolution_modifyRow]

theorem height_modifyRow {f : BitVec s.width → BitVec s.width} :
    (s.modifyRow y f).height = s.height := by
  rw [Screen.height, resolution_modifyRow]

theorem length_pixels_modifyRow {f : BitVec s.width → BitVec s.width} :
    (s.modifyRow y f).pixels.length = s.height * s.width := by
  rw [length_pixels, width_modifyRow, height_modifyRow]

/-- A list with the right pixels is the list of the pixels of a screen with one row changed. -/
theorem eq_pixels_modifyRow {f : BitVec s.width → BitVec s.width} (hy : y < s.height)
    {l : List Bool} (hl : l.length = s.height * s.width)
    (h : ∀ y' < s.height, ∀ x < s.width, l[y' * s.width + x]? =
      some (if y' = y then (f (s.row y)).getMsbD x else s.pixel x y')) :
    l = (s.modifyRow y f).pixels := by
  apply eq_pixels
  · rwa [width_modifyRow, height_modifyRow]
  · intro y' hy' x hx
    rw [height_modifyRow] at hy'
    rw [width_modifyRow] at hx ⊢
    rw [pixel_modifyRow hy]
    exact h y' hy' x hx

theorem getElem?_pixels_modifyRow {f : BitVec s.width → BitVec s.width} (hy : y < s.height)
    {x y' : Nat} (hx : x < s.width) (hy' : y' < s.height) :
    (s.modifyRow y f).pixels[y' * s.width + x]? =
      some (if y' = y then (f (s.row y)).getMsbD x else s.pixel x y') := by
  have hp := getElem?_pixels (s := s.modifyRow y f) (x := x) (y := y')
  rw [width_modifyRow, height_modifyRow, pixel_modifyRow hy] at hp
  exact hp hx hy'

/-- The mask of one column. -/
def column (w i : Nat) : BitVec w :=
  BitVec.twoPow w (w - 1) >>> i

theorem getMsbD_column {w i j : Nat} (hi : i < w) :
    (column w i).getMsbD j = decide (i = j) := by
  rw [column, BitVec.getMsbD_ushiftRight, BitVec.getMsbD_twoPow]
  by_cases hij : i = j
  · subst hij
    simp [hi]
    omega
  · simp [hij]
    omega

/-- To flip one more pixel is to add its column to the mask. -/
theorem set_pixels_modifyRow (hy : y < s.height) (hi : i < s.width)
    (hm : mask.getMsbD i = false) :
    (s.modifyRow y (· ^^^ mask)).pixels.set (y * s.width + i) (!s.pixel i y) =
      (s.modifyRow y (· ^^^ (mask ||| column s.width i))).pixels := by
  apply eq_pixels_modifyRow hy
  · rw [List.length_set, length_pixels_modifyRow]
  · intro y' hy' x hx
    have hplace := place_lt hi hy
    rw [List.getElem?_set, length_pixels_modifyRow, getElem?_pixels_modifyRow hy hx hy']
    by_cases hj : y * s.width + i = y' * s.width + x
    · obtain ⟨rfl, rfl⟩ := place_inj hi hx hj
      simp [hplace, pixel, getMsbD_column hi, hm]
    · rw [if_neg hj]
      by_cases hyy : y' = y
      · subst hyy
        have hne : i ≠ x := by
          rintro rfl
          exact hj rfl
        simp [getMsbD_column hi, hne]
      · rw [if_neg hyy, if_neg hyy]

/-- A mask meets a lit pixel after a column is added if it did before or the new pixel is lit. -/
theorem and_column_ne_zero (hi : i < s.width) :
    decide (s.row y &&& (mask ||| column s.width i) ≠ 0) =
      (decide (s.row y &&& mask ≠ 0) || s.pixel i y) := by
  rw [Bool.eq_iff_iff, Bool.or_eq_true, decide_eq_true_eq, decide_eq_true_eq, and_ne_zero_iff,
    and_ne_zero_iff]
  constructor
  · rintro ⟨j, hrow, hmask⟩
    rw [BitVec.getMsbD_or, getMsbD_column hi, Bool.or_eq_true, decide_eq_true_eq] at hmask
    rcases hmask with hmask | rfl
    · exact .inl ⟨j, hrow, hmask⟩
    · exact .inr hrow
  · rintro (⟨j, hrow, hmask⟩ | hrow)
    · exact ⟨j, hrow, by rw [BitVec.getMsbD_or, hmask, Bool.true_or]⟩
    · refine ⟨i, hrow, ?_⟩
      rw [BitVec.getMsbD_or, getMsbD_column hi, decide_eq_true rfl, Bool.or_true]

/-- The bits of a row of a sprite are within the screen, and they flip what the placed row
flips. -/
theorem blit_pixels {k x columns left : Nat} {wrap : Bool} {bits : BitVec k} (hy : y < s.height)
    (hx : x < s.width) (hk : k ≤ s.width) (h : columns + left = k)
    (hm : ∀ i, mask.getMsbD i ↔ Landed s.width wrap x bits columns i) :
    blit s.width wrap bits.toNat k x (y * s.width) columns left
        (s.modifyRow y (· ^^^ mask)).pixels (decide (s.row y &&& mask ≠ 0)) =
      .ok ((s.modifyRow y (· ^^^ placed s.width wrap x bits)).pixels,
        decide (s.row y &&& placed s.width wrap x bits ≠ 0)) := by
  -- By induction on the columns that are left, for the mask of those that have been drawn.
  induction left generalizing columns mask with
  | zero =>
    obtain rfl : columns = k := h
    rw [blit, eq_placed hk hx hm]
  | succ left ih =>
    rw [blit]
    by_cases hclip : s.width ≤ x + columns ∧ wrap = false
    · obtain ⟨hout, rfl⟩ := hclip
      have hplaced : mask = placed s.width false x bits := by
        refine eq_placed hk hx fun i => ?_
        rw [hm, landed_of_clipped hout (by omega)]
      rw [if_pos ⟨hout, rfl⟩, hplaced]
    · rw [if_neg hclip, testBit_toNat (by omega)]
      cases hb : bits.getMsbD columns with
      | false =>
        rw [if_neg Bool.false_ne_true]
        refine ih (by omega) fun i => ?_
        rw [hm, landed_succ_of_none (.inl hb)]
      | true =>
        have hl : landing s.width wrap (x + columns) = some
            (if s.width ≤ x + columns then x + columns - s.width else x + columns) := by
          split
          · have hwrap : wrap = true := by
              cases wrap with
              | true => rfl
              | false => exact absurd ⟨‹_›, rfl⟩ hclip
            rw [hwrap, landing_wrapped ‹_› (by omega)]
          · exact landing_of_lt (by omega)
        set i := if s.width ≤ x + columns then x + columns - s.width else x + columns
        have hi : i < s.width := lt_of_landing (by omega) hl
        have hmi : mask.getMsbD i = false := by
          rw [← Bool.not_eq_true, hm]
          exact not_landed hx (by omega) hl
        have hlit := getElem?_pixels_modifyRow (f := (· ^^^ mask)) hy hi hy
        rw [if_pos rfl, BitVec.getMsbD_xor, hmi, Bool.xor_false] at hlit
        have hlt := (List.getElem?_eq_some_iff.1 hlit).1
        rw [if_pos rfl]
        dsimp only
        rw [access_eq_ok hlit, ok_bind, update_natCast hlt, ok_bind]
        change blit _ _ _ _ _ _ _ _ (List.set _ _ (!s.pixel i y)) (_ || s.pixel i y) = _
        rw [set_pixels_modifyRow hy hi hmi, ← and_column_ne_zero hi]
        refine ih (by omega) fun j => ?_
        rw [BitVec.getMsbD_or, getMsbD_column hi, Bool.or_eq_true, decide_eq_true_eq, hm,
          landed_succ_of_some hb hl]

/-- A row of a sprite is drawn from its first column on. -/
theorem blit_row {k x : Nat} {wrap : Bool} {bits : BitVec k} (hy : y < s.height)
    (hx : x < s.width) (hk : k ≤ s.width) :
    blit s.width wrap bits.toNat k x (y * s.width) 0 k s.pixels false =
      .ok ((s.modifyRow y (· ^^^ placed s.width wrap x bits)).pixels,
        decide (s.row y &&& placed s.width wrap x bits ≠ 0)) := by
  have hzero : s.pixels = (s.modifyRow y (· ^^^ (0 : BitVec s.width))).pixels := by
    refine eq_pixels_modifyRow hy (length_pixels s) fun y' hy' x hx => ?_
    rw [getElem?_pixels hx hy']
    by_cases hyy : y' = y
    · subst hyy
      simp [pixel]
    · rw [if_neg hyy]
  have hhit : decide (s.row y &&& (0 : BitVec s.width) ≠ 0) = false := by simp
  have hblit : blit s.width wrap bits.toNat k x (y * s.width) 0 k
        (s.modifyRow y (· ^^^ (0 : BitVec s.width))).pixels
        (decide (s.row y &&& (0 : BitVec s.width) ≠ 0)) =
      .ok ((s.modifyRow y (· ^^^ placed s.width wrap x bits)).pixels,
        decide (s.row y &&& placed s.width wrap x bits ≠ 0)) :=
    blit_pixels hy hx hk (Nat.zero_add k) fun i => by simp [Landed]
  rwa [← hzero, hhit] at hblit

end Mask

end Flat

/-! ## The flag register -/

namespace Cpu

/-- The processor with another screen and a number in the flag register. -/
def drawn (c : Cpu) (s : Screen) (n : Nat) : Cpu :=
  { c with screen := s }.setRegister flag (UInt8.ofNat n)

end Cpu

namespace Flat

open Screen

/-- What the flag register tells while a sprite is drawn. -/
def tally (isLarge : Bool) (collisions below : Nat) : Nat :=
  if isLarge then collisions + below else min 1 collisions

variable {c : Cpu} {s : Screen} {n : Nat}

theorem register_drawn (h : n < 256) : (c.drawn s n).register Cpu.flag = UInt8.ofNat n ∧
    ((UInt8.ofNat n).toNat : Int) = n := by
  constructor
  · rw [Cpu.drawn, Cpu.register_setRegister, if_pos rfl]
  · rw [UInt8.toNat_ofNat', Nat.mod_eq_of_lt h]

theorem setRegister_drawn {m : Nat} (h : m < 256) :
    (c.drawn s n).flat.setRegister 15 m = .ok (c.drawn s m).flat := by
  have hs := setRegister_flat (c := c.drawn s n) Cpu.flag (v := m) ⟨by omega, by omega⟩
  rwa [ofInt_natCast, Cpu.drawn, setRegister_setRegister] at hs

theorem countFlag_drawn (h : n < 255) :
    (c.drawn s n).flat.countFlag = .ok (c.drawn s (n + 1)).flat := by
  obtain ⟨hflag, hn⟩ := register_drawn (c := c) (s := s) (n := n) (by omega)
  have hr := register_flat (c := c.drawn s n) Cpu.flag
  rw [hflag, hn] at hr
  have hsucc : (n : Int) + 1 = ((n + 1 : Nat) : Int) := by omega
  rw [countFlag, show (15 : Int) = Cpu.flag.val from rfl, hr, ok_bind, hsucc]
  exact setRegister_drawn (by omega)

theorem collide_drawn {isLarge : Bool} {collisions below : Nat}
    (h : tally isLarge collisions below < 255) (hit : Bool) :
    (c.drawn s (tally isLarge collisions below)).flat.collide isLarge hit =
      .ok (c.drawn s (tally isLarge (if hit then collisions + 1 else collisions) below)).flat := by
  cases hit with
  | false => rfl
  | true =>
    rw [collide, if_pos rfl, if_pos rfl]
    cases isLarge with
    | true =>
      have hsucc : tally true (collisions + 1) below = tally true collisions below + 1 := by
        rw [tally, tally, if_pos rfl, if_pos rfl]
        omega
      rw [if_pos rfl, countFlag_drawn h, hsucc]
    | false =>
      have hone : tally false (collisions + 1) below = 1 := by
        rw [tally, if_neg Bool.false_ne_true]
        omega
      rw [if_neg Bool.false_ne_true, hone]
      exact setRegister_drawn (by decide)

theorem drawn_pixels {s' : Screen} (h : s'.resolution = s.resolution) :
    { (c.drawn s n).flat with pixels := s'.pixels } = (c.drawn s' n).flat :=
  (flat_screen (c := c.drawn s n) h).symm

/-- Drawing a row of a sprite on the row of the screen on which it lands. -/
theorem drawRow_flat {isLarge wrap : Bool} {bits : BitVec (if isLarge then 16 else 8)}
    {d : Drawing} {x y y' row below : Nat} (hwrap : c.dialect.spriteWrap = wrap)
    (hx : x < d.screen.width) (hy : y < d.screen.height)
    (hl : landing d.screen.height wrap y' = some y)
    (hbits : ∀ s n, (c.drawn s n).flat.spriteRow isLarge row = .ok (bits.toNat : Int))
    (hn : tally isLarge d.collisions below < 255) :
    (c.drawn d.screen (tally isLarge d.collisions below)).flat.drawRow isLarge x y row =
      .ok (c.drawn (d.drawRow wrap x y' bits).screen
        (tally isLarge (d.drawRow wrap x y' bits).collisions below)).flat := by
  have hk : (if isLarge then 16 else 8) ≤ d.screen.width := by
    have hw : 64 ≤ d.screen.width := by
      cases hr : d.screen.resolution <;> simp [Screen.width, hr, Resolution.width]
    cases isLarge <;> simp only [Bool.false_eq_true, if_true, if_false] <;> omega
  set m := tally isLarge d.collisions below with hm
  set mask := placed d.screen.width wrap x bits with hmask
  have hblit : blit (c.drawn d.screen m).flat.width wrap bits.toNat (if isLarge then 16 else 8) x
      (y * (c.drawn d.screen m).flat.width) 0 (if isLarge then 16 else 8)
      (c.drawn d.screen m).flat.pixels false =
        .ok ((d.screen.modifyRow y (· ^^^ mask)).pixels, decide (d.screen.row y &&& mask ≠ 0)) :=
    blit_row hy hx hk
  have hcount : (if decide (d.screen.row y &&& mask ≠ 0) then d.collisions + 1 else d.collisions) =
      if d.screen.row y &&& mask = 0 then d.collisions else d.collisions + 1 := by
    by_cases hhit : d.screen.row y &&& mask = 0 <;> simp [hhit]
  have hcollide := collide_drawn (c := c) (s := d.screen.modifyRow y (· ^^^ mask)) hn
    (decide (d.screen.row y &&& mask ≠ 0))
  rw [← hm, ← drawn_pixels (s := d.screen) (resolution_modifyRow ..), hcount] at hcollide
  have hwrap' : (c.drawn d.screen m).flat.dialect.spriteWrap = wrap := hwrap
  rw [drawRow, hbits, ok_bind, hwrap']
  dsimp only
  rw [Int.toNat_natCast, hblit, ok_bind, Drawing.drawRow, hl]
  exact hcollide

/-! ## All rows of a sprite -/

/-- How many of the first rows of a sprite count as lying below the screen. -/
def below (height : Nat) (wrap : Bool) (y rows : Nat) : Nat :=
  if wrap then y + rows - height else min 1 (y + rows - height)

theorem below_le (height : Nat) (wrap : Bool) (y rows : Nat) :
    below height wrap y rows ≤ y + rows - height := by
  rw [below]
  split <;> omega

theorem below_of_le {height y rows : Nat} {wrap : Bool} (h : y + rows ≤ height) :
    below height wrap y rows = 0 := by
  rw [below]
  split <;> omega

theorem tally_le (isLarge : Bool) (collisions below : Nat) :
    tally isLarge collisions below ≤ collisions + below := by
  rw [tally]
  split <;> omega

theorem collisions_drawRow_le {k : Nat} (d : Drawing) (wrap : Bool) (x y : Nat) (bits : BitVec k) :
    (d.drawRow wrap x y bits).collisions ≤ d.collisions + 1 := by
  rw [Drawing.drawRow]
  split
  · exact Nat.le_succ _
  · dsimp only
    split <;> omega

/-- Counting a row below the screen: the flag register of a large sprite shows it. -/
theorem countBelow_drawn {isLarge : Bool} {collisions below : Nat}
    (h : tally isLarge collisions below < 255) :
    (c.drawn s (tally isLarge collisions below)).flat.countBelow isLarge =
      .ok (c.drawn s (tally isLarge collisions (below + 1))).flat := by
  cases isLarge with
  | true => exact countFlag_drawn h
  | false => rfl

/-- The processor after the first rows of a sprite, with what has been drawn and counted. -/
def midway (c : Cpu) (isLarge wrap : Bool) (h y row : Nat) (d : Drawing) : Cpu :=
  c.drawn d.screen (tally isLarge d.collisions (below h wrap y row))

section Rows

variable (isLarge : Bool) (sprite : Nat → BitVec (if isLarge then 16 else 8)) {x y h row : Nat}
  {wrap : Bool} {d : Drawing}
  (hsprite : ∀ s n row, (c.drawn s n).flat.spriteRow isLarge row = .ok ((sprite row).toNat : Int))
  (hwrap : c.dialect.spriteWrap = wrap)

include hsprite hwrap in
/-- A row that lies on the screen, or that wraps around it, is drawn before the next one. -/
theorem drawRows_succ (hh : d.screen.height = h) (hx : x < d.screen.width) (hy : y < h)
    (hrow : row < 16) (hd : d.collisions ≤ row) (hgo : y + row < h ∨ wrap = true) (left : Nat) :
    drawRows isLarge x y row (left + 1) (midway c isLarge wrap h y row d).flat =
      drawRows isLarge x y (row + 1) left (midway c isLarge wrap h y (row + 1)
        (d.drawRow wrap x (y + row) (sprite row))).flat := by
  have h32 : 32 ≤ h := by
    rw [← hh]
    cases hr : d.screen.resolution <;> simp [Screen.height, hr, Resolution.height]
  have hheight : (midway c isLarge wrap h y row d).flat.height = h := hh
  -- So many collisions, so many rows at least: the flag register does not run over.
  have hfits (k : Nat) (hk : k ≤ row + 1) :
      tally isLarge d.collisions (below h wrap y k) < 255 := by
    have htally := tally_le isLarge d.collisions (below h wrap y k)
    have hbelow := below_le h wrap y k
    omega
  rw [drawRows, hheight]
  by_cases hin : y + row < h
  · have hnext : below h wrap y row = below h wrap y (row + 1) := by
      rw [below_of_le (by omega), below_of_le (by omega)]
    have hl : landing d.screen.height wrap (y + row) = some (y + row) := landing_of_lt (by omega)
    have hdraw := drawRow_flat hwrap hx (by omega) hl (fun s n => hsprite s n row)
      (hfits row (by omega))
    rw [if_neg (by omega), midway, hdraw, ok_bind, hnext]
    rfl
  · obtain rfl : wrap = true := hgo.resolve_left hin
    have hcount : (midway c isLarge true h y row d).flat.countBelow isLarge =
        .ok (c.drawn d.screen (tally isLarge d.collisions (below h true y row + 1))).flat :=
      countBelow_drawn (hfits row (by omega))
    have hnext : below h true y row + 1 = below h true y (row + 1) := by
      rw [below, below, if_pos rfl, if_pos rfl]
      omega
    have hl : landing d.screen.height true (y + row) = some (y + row - h) := by
      rw [hh, landing_wrapped (by omega) (by omega)]
    have hdraw := drawRow_flat hwrap hx (show y + row - h < d.screen.height by omega) hl
      (fun s n => hsprite s n row) (hfits (row + 1) (Nat.le_refl _))
    rw [if_pos (by omega), hcount, ok_bind]
    change (if c.dialect.spriteWrap then _ else _) = _
    rw [hwrap, if_pos rfl, hnext]
    change (drawRow _ isLarge x (y + row - d.screen.height) row >>= _) = _
    rw [hh, hdraw, ok_bind]
    rfl

include hwrap in
/-- If sprites do not wrap, the first row below the screen is counted, and no row is drawn any
more. -/
theorem drawRows_of_eq (hclip : wrap = false) (hh : d.screen.height = h) (hy : y < h)
    (hrow : row < 16) (hd : d.collisions ≤ row) (hin : y + row = h) (left : Nat) :
    drawRows isLarge x y row (left + 1) (midway c isLarge wrap h y row d).flat =
      .ok (midway c isLarge wrap h y (row + (left + 1)) d).flat := by
  subst hclip
  have hheight : (midway c isLarge false h y row d).flat.height = h := hh
  have hzero : below h false y row = 0 := below_of_le (Nat.le_of_eq hin)
  have hcount : (midway c isLarge false h y row d).flat.countBelow isLarge =
      .ok (c.drawn d.screen (tally isLarge d.collisions (below h false y row + 1))).flat := by
    refine countBelow_drawn ?_
    have htally := tally_le isLarge d.collisions (below h false y row)
    omega
  have hnext : below h false y row + 1 = below h false y (row + (left + 1)) := by
    rw [below, below, if_neg Bool.false_ne_true, if_neg Bool.false_ne_true]
    omega
  rw [drawRows, hheight, if_pos (by omega), hcount, ok_bind]
  change (if c.dialect.spriteWrap then _ else _) = _
  rw [hwrap, if_neg Bool.false_ne_true, hnext]
  rfl

include hsprite hwrap in
/-- The rows of a sprite from row `row` on are drawn on the screen, and counted. -/
theorem drawRows_flat (row left : Nat) (d : Drawing) (hh : d.screen.height = h)
    (hx : x < d.screen.width) (hy : y < h) (hrows : row + left ≤ 16)
    (hclip : wrap = false → y + row ≤ h) (hd : d.collisions ≤ row) :
    drawRows isLarge x y row left (midway c isLarge wrap h y row d).flat =
      .ok (midway c isLarge wrap h y (row + left)
        (d.drawRows wrap x (y + row) ((List.range' row left).map sprite))).flat := by
  -- By induction on the rows that are left.
  induction left generalizing row d with
  | zero => rfl
  | succ left ih =>
    by_cases hgo : y + row < h ∨ wrap = true
    · let d' := d.drawRow wrap x (y + row) (sprite row)
      have hr : d'.screen.resolution = d.screen.resolution := Drawing.resolution_drawRow ..
      have hd' : d'.collisions ≤ d.collisions + 1 := collisions_drawRow_le ..
      have hh' : d'.screen.height = h := by rwa [Screen.height, hr]
      have hx' : x < d'.screen.width := by rwa [Screen.width, hr]
      have hclip' : wrap = false → y + (row + 1) ≤ h := by
        rintro rfl
        exact hgo.resolve_right Bool.false_ne_true
      have hsum : row + (left + 1) = row + 1 + left := by omega
      rw [drawRows_succ isLarge sprite hsprite hwrap hh hx hy (by omega) hd hgo, hsum]
      exact ih (row + 1) d' hh' hx' (by omega) hclip' (by omega)
    · rw [not_or, Bool.not_eq_true] at hgo
      have hin : y + row = h := by
        have := hclip hgo.2
        omega
      rw [drawRows_of_eq isLarge hwrap hgo.2 hh hy (by omega) hd hin, hgo.2,
        Drawing.drawRows_of_height_le d x (by omega)]

end Rows

/-! ## The sprite at the index register -/

theorem spriteRow_large (row : Nat) :
    (c.drawn s n).flat.spriteRow true row =
      .ok ((BitVec.ofNat 16 (c.memory.read16 (c.index + 2 * row))).toNat : Int) := by
  have hlt : c.memory.read16 (c.index + 2 * row) < 65536 := by
    have hhigh := (c.memory.read (c.index + 2 * row)).toNat_lt
    have hlow := (c.memory.read (c.index + 2 * row + 1)).toNat_lt
    rw [Memory.read16]
    omega
  rw [spriteRow, if_pos rfl, read16_flat, BitVec.toNat_ofNat, Nat.mod_eq_of_lt hlt,
    Int.mul_comm 2]
  rfl

theorem spriteRow_small (row : Nat) :
    (c.drawn s n).flat.spriteRow false row =
      .ok ((c.memory.read (c.index + row)).toBitVec.toNat : Int) := by
  rw [spriteRow, if_neg Bool.false_ne_true, read_flat]
  rfl

/-- A small sprite tells in the flag register whether some row collided. -/
theorem drawn_tally_false (collisions below : Nat) :
    c.drawn s (tally false collisions below) =
      { c with screen := s }.setFlag (collisions ≠ 0) := by
  cases collisions with
  | zero => rfl
  | succ m =>
    have hone : tally false (m + 1) below = 1 := by
      rw [tally, if_neg Bool.false_ne_true]
      omega
    rw [hone]
    rfl

theorem drawSprite_flat (vx vy : Fin 16) {height : Int} (h : 0 ≤ height ∧ height ≤ 15) :
    c.flat.drawSprite vx.val vy.val height = .ok (c.drawSprite vx vy height).flat := by
  have hw : 0 < c.screen.width := c.screen.resolution.width_pos
  have hh : 0 < c.screen.height := c.screen.resolution.height_pos
  set x := (c.register vx).toNat % c.screen.width with hx
  set y := (c.register vy).toNat % c.screen.height with hy
  have hxlt : x < c.screen.width := Nat.mod_lt _ hw
  have hylt : y < c.screen.height := Nat.mod_lt _ hh
  have hx' : ((c.register vx).toNat : Int) % (c.flat.width : Int) = (x : Int) :=
    (Int.natCast_emod _ _).symm
  have hy' : ((c.register vy).toNat : Int) % (c.flat.height : Int) = (y : Int) :=
    (Int.natCast_emod _ _).symm
  have hsize : ¬(c.flat.width = 0 ∨ c.flat.height = 0) := by
    change ¬(c.screen.width = 0 ∨ c.screen.height = 0)
    omega
  have hstart (isLarge : Bool) : c.setFlag false = c.drawn c.screen (tally isLarge 0
      (below c.screen.height c.dialect.spriteWrap y 0)) := by
    rw [below_of_le (by omega)]
    cases isLarge <;> rfl
  rw [drawSprite, if_neg hsize, register_flat, ok_bind, register_flat, ok_bind]
  dsimp only
  rw [setFlag_flat, ok_bind, hx', hy', Int.toNat_natCast, Int.toNat_natCast, Cpu.drawSprite]
  dsimp only
  by_cases hn : height = 0
  · rw [if_pos hn, if_pos hn, decide_eq_true hn, hstart true]
    have hrows := drawRows_flat true
      (fun k => BitVec.ofNat 16 (c.memory.read16 (c.index + 2 * k)))
      (fun _ _ row => spriteRow_large row) rfl 0 16 ⟨c.screen, 0⟩ rfl hxlt hylt (by omega)
      (fun _ => hylt.le) (Nat.le_refl 0)
    rw [← List.range_eq_range'] at hrows
    exact hrows
  · have hmin : min height.toNat (2 * c.screen.height) = height.toNat := by
      have : 32 ≤ c.screen.height := by
        cases hr : c.screen.resolution <;> simp [Screen.height, hr, Resolution.height]
      omega
    rw [if_neg hn, if_neg hn, decide_eq_false hn, hstart false, hmin]
    have hrows := drawRows_flat false (fun k => (c.memory.read (c.index + k)).toBitVec)
      (fun _ _ row => spriteRow_small row) rfl 0 height.toNat ⟨c.screen, 0⟩ rfl hxlt hylt (by omega)
      (fun _ => hylt.le) (Nat.le_refl 0)
    rw [← List.range_eq_range'] at hrows
    exact hrows.trans (congrArg (fun c' => Except.ok (Cpu.flat c')) (drawn_tally_false _ _))

end Flat

end ChipEight
