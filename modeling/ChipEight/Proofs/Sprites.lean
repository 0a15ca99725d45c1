/-
Sprites in the memory, and what the processor does when it draws one.

A sprite is a picture that lies in the memory from the index register on, large if its height is
given as zero.  To draw it flips the pixels on which its set bits land.  The flag register tells of
the pixels that became dark, and for a large sprite also of the rows below the screen: where
sprites wrap around it counts all of these rows, and where they are clipped it counts one of them.

Main definitions:
* `Cpu.spriteBit`: a bit of the sprite;
* `Cpu.RowClears`: a row of a sprite makes a lit pixel dark.

Main statements:
* `Cpu.draw_flips_sprite`: what drawing changes;
* `Cpu.draw_counts_rows`: what the flag register counts for a large sprite;
* `Cpu.draw_counts_one_clipped_row`: it does not count all rows below the screen.
-/
import ChipEight.Proofs.Footprints
import ChipEight.Proofs.Screen.Drawings

namespace ChipEight.Cpu

/-! ## Sprites in the memory -/

/-- The bit in column `col` of row `row` of the sprite of height `n` at the index register.  A row
of a large sprite takes two bytes. -/
def spriteBit (c : Cpu) (n row col : Nat) : Bool :=
  if n = 0 then
    decide (row < 16 ∧ col < 16) &&
      (c.memory.read (c.index + (2 * row + col / 8 : Nat))).toBitVec.getMsbD (col % 8)
  else
    decide (row < n ∧ col < 8) && (c.memory.read (c.index + row)).toBitVec.getMsbD col

/-- A set bit in the row of the sprite lands on a lit pixel, where the corner of the sprite stands
in column `x` of row `y`. -/
def RowClears (c : Cpu) (n x y row : Nat) : Prop :=
  ∃ col < 16, c.spriteBit n row col = true ∧
    let p := c.screen.place c.dialect.spriteWrap (x + col) (y + row)
    c.screen.pixel p.1 p.2 = true

instance (c : Cpu) (n x y row : Nat) : Decidable (c.RowClears n x y row) :=
  inferInstanceAs (Decidable (∃ col < 16, _))

variable {c : Cpu} {n row col : Nat}

/-- A word has the bits of its high byte and then those of its low byte. -/
theorem getMsbD_read16 (m : Memory) (a : Int) (col : Nat) :
    (BitVec.ofNat 16 (m.read16 a)).getMsbD col =
      if col < 8 then (m.read a).toBitVec.getMsbD col
      else (m.read (a + 1)).toBitVec.getMsbD (col - 8) := by
  have hword : BitVec.ofNat 16 (m.read16 a) = (m.read a).toBitVec ++ (m.read (a + 1)).toBitVec := by
    have hhigh := (m.read a).toNat_lt
    have hlow := (m.read (a + 1)).toNat_lt
    apply BitVec.eq_of_toNat_eq
    rw [BitVec.toNat_ofNat, BitVec.toNat_append, Memory.read16]
    show _ = (m.read a).toNat <<< 8 ||| (m.read (a + 1)).toNat
    rw [← Nat.shiftLeft_add_eq_or_of_lt hlow, Nat.shiftLeft_eq]
    omega
  rw [hword, BitVec.getMsbD_append]
  by_cases hcol : col < 8
  · rw [if_pos hcol, if_neg (by omega)]
  · rw [if_neg hcol, if_pos (by omega)]

theorem spriteBit_large :
    c.spriteBit 0 row col = true ↔ row < 16 ∧ col < 16 ∧
      (BitVec.ofNat 16 (c.memory.read16 (c.index + 2 * row))).getMsbD col = true := by
  rw [spriteBit, if_pos rfl, Bool.and_eq_true, decide_eq_true_eq, and_assoc, getMsbD_read16]
  refine and_congr_right fun _ => and_congr_right fun hcol => ?_
  by_cases hleft : col < 8
  · rw [if_pos hleft, Nat.div_eq_of_lt hleft, Nat.mod_eq_of_lt hleft]
    rfl
  · rw [if_neg hleft, show col / 8 = 1 by omega, show col % 8 = col - 8 by omega,
      Int.natCast_add, ← Int.add_assoc]
    rfl

theorem spriteBit_small (hn : n ≠ 0) :
    c.spriteBit n row col = true ↔
      row < n ∧ col < 8 ∧ (c.memory.read (c.index + row)).toBitVec.getMsbD col = true := by
  rw [spriteBit, if_neg hn, Bool.and_eq_true, decide_eq_true_eq, and_assoc]

/-! ## What drawing does -/

section Draw

variable (c : Cpu) (vx vy : Fin 16)

theorem column_lt : (c.register vx).toNat % c.screen.width < c.screen.width :=
  Nat.mod_lt _ c.screen.resolution.width_pos

theorem row_lt : (c.register vy).toNat % c.screen.height < c.screen.height :=
  Nat.mod_lt _ c.screen.resolution.height_pos

/-- The screen is at least as large as a large sprite. -/
theorem large_le : 16 ≤ c.screen.width ∧ 16 ≤ c.screen.height := by
  rw [Screen.width, Screen.height]
  cases c.screen.resolution <;> decide

theorem execute_draw (n : Fin 16) :
    c.execute ⟨.drw, [(vx : Nat), (vy : Nat), (n : Nat)]⟩ = c.drawSprite vx vy (n : Nat) := by
  let draw : Instruction := ⟨.drw, [(vx : Nat), (vy : Nat), (n : Nat)]⟩
  have hx : draw.register .x = vx := Instruction.register_of_operand rfl
  have hy : draw.register .y = vy := Instruction.register_of_operand rfl
  show c.drawSprite (draw.register .x) (draw.register .y) (n : Nat) = _
  rw [hx, hy]

/-- The screen and the number of collisions after the rows of a sprite are drawn. -/
def drawing {k : Nat} (rows : List (BitVec k)) : Screen.Drawing :=
  c.screen.draw c.dialect.spriteWrap ((c.register vx).toNat % c.screen.width)
    ((c.register vy).toNat % c.screen.height) rows

theorem drawSprite_large :
    c.drawSprite vx vy 0 =
      { c with screen := (c.drawing vx vy c.largeSprite).screen }.setRegister flag
        (UInt8.ofNat ((c.drawing vx vy c.largeSprite).collisions +
          Screen.overhang c.screen.height c.dialect.spriteWrap
            ((c.register vy).toNat % c.screen.height))) := by
  rw [drawSprite, if_pos rfl, drawing]

theorem drawSprite_small {n : Nat} (hn : n ≠ 0) (hn' : n < 16) :
    c.drawSprite vx vy n =
      { c with screen := (c.drawing vx vy (c.smallSprite n)).screen }.setFlag
        ((c.drawing vx vy (c.smallSprite n)).collisions ≠ 0) := by
  have hrows : min (n : Int).toNat (2 * c.screen.height) = n := by
    have := (large_le c).2
    omega
  rw [drawSprite, if_neg (by omega), hrows, drawing]

theorem screen_drawSprite_large :
    (c.drawSprite vx vy 0).screen = (c.drawing vx vy c.largeSprite).screen := by
  -- The drawing is hidden, so that nothing tries to draw it.
  rw [drawSprite_large]
  generalize c.drawing vx vy c.largeSprite = d
  rfl

theorem screen_drawSprite_small {n : Nat} (hn : n ≠ 0) (hn' : n < 16) :
    (c.drawSprite vx vy n).screen = (c.drawing vx vy (c.smallSprite n)).screen := by
  rw [drawSprite_small c vx vy hn hn']
  rfl

/-- Drawing flips exactly the pixels on which a set bit of the sprite lands. -/
theorem pixel_drawSprite_ne_iff {n px py : Nat} (hn : n < 16) (hpx : px < c.screen.width)
    (hpy : py < c.screen.height) :
    (c.drawSprite vx vy n).screen.pixel px py ≠ c.screen.pixel px py ↔
      ∃ row col, c.spriteBit n row col = true ∧
        c.screen.place c.dialect.spriteWrap ((c.register vx).toNat % c.screen.width + col)
          ((c.register vy).toNat % c.screen.height + row) = (px, py) := by
  obtain ⟨hwidth, hheight⟩ := large_le c
  by_cases hn0 : n = 0
  · subst hn0
    rw [Int.natCast_zero, screen_drawSprite_large, drawing, largeSprite,
      Screen.pixel_draw_ne_iff hwidth (column_lt c vx) (row_lt c vy) hheight hpx hpy]
    constructor
    · rintro ⟨row, hrow, col, hcol, hbit, hplace⟩
      exact ⟨row, col, spriteBit_large.2 ⟨hrow, hcol, hbit⟩, hplace⟩
    · rintro ⟨row, col, hbit, hplace⟩
      obtain ⟨hrow, hcol, hbit⟩ := spriteBit_large.1 hbit
      exact ⟨row, hrow, col, hcol, hbit, hplace⟩
  · rw [screen_drawSprite_small c vx vy hn0 hn, drawing, smallSprite,
      Screen.pixel_draw_ne_iff (by omega) (column_lt c vx) (row_lt c vy) (by omega) hpx hpy]
    constructor
    · rintro ⟨row, hrow, col, hcol, hbit, hplace⟩
      exact ⟨row, col, (spriteBit_small hn0).2 ⟨hrow, hcol, hbit⟩, hplace⟩
    · rintro ⟨row, col, hbit, hplace⟩
      obtain ⟨hrow, hcol, hbit⟩ := (spriteBit_small hn0).1 hbit
      exact ⟨row, hrow, col, hcol, hbit, hplace⟩

/-- The flag register tells whether drawing a small sprite made a lit pixel dark. -/
theorem flag_drawSprite_small {n : Nat} (hn : n ≠ 0) (hn' : n < 16) :
    (c.drawSprite vx vy n).register flag =
      if ∃ px < c.screen.width, ∃ py < c.screen.height, c.screen.pixel px py = true ∧
        (c.drawSprite vx vy n).screen.pixel px py = false then 1 else 0 := by
  obtain ⟨hwidth, hheight⟩ := large_le c
  have hdark : (c.drawing vx vy (c.smallSprite n)).collisions ≠ 0 ↔
      ∃ px < c.screen.width, ∃ py < c.screen.height, c.screen.pixel px py = true ∧
        (c.drawing vx vy (c.smallSprite n)).screen.pixel px py = false :=
    Screen.collisions_draw_ne_zero_iff (by omega) (column_lt c vx) (row_lt c vy) (by omega)
  simp only [screen_drawSprite_small c vx vy hn hn', ← hdark]
  rw [drawSprite_small c vx vy hn hn', setFlag, register_setRegister, if_pos rfl]
  simp only [decide_eq_true_eq]

/-- Where drawing a large sprite leaves the flag register: it counts the rows that clear a lit
pixel, and the rows below the screen that are counted. -/
theorem flag_drawSprite_large :
    ((c.drawSprite vx vy 0).register flag).toNat =
      (List.range 16).countP (c.RowClears 0 ((c.register vx).toNat % c.screen.width)
          ((c.register vy).toNat % c.screen.height) ·) +
        Screen.overhang c.screen.height c.dialect.spriteWrap
          ((c.register vy).toNat % c.screen.height) := by
  obtain ⟨hwidth, hheight⟩ := large_le c
  have hcounted : (c.drawing vx vy c.largeSprite).collisions = (List.range 16).countP
      (c.RowClears 0 ((c.register vx).toNat % c.screen.width)
        ((c.register vy).toNat % c.screen.height) ·) := by
    refine (Screen.collisions_draw hwidth (column_lt c vx) (row_lt c vy) hheight).trans ?_
    refine List.countP_congr fun row hrow => ?_
    rw [decide_eq_true_iff, decide_eq_true_iff]
    refine exists_congr fun col => and_congr_right fun hcol => and_congr_left fun _ => ?_
    rw [spriteBit_large]
    exact ⟨fun hbit => ⟨List.mem_range.1 hrow, hcol, hbit⟩, fun hbit => hbit.2.2⟩
  have hrows : (List.range 16).countP (c.RowClears 0 ((c.register vx).toNat % c.screen.width)
      ((c.register vy).toNat % c.screen.height) ·) ≤ 16 := by
    simpa using List.countP_le_length (l := List.range 16)
  have hbelow : Screen.overhang c.screen.height c.dialect.spriteWrap
      ((c.register vy).toNat % c.screen.height) ≤ 16 := by
    have := row_lt c vy
    rw [Screen.overhang]
    split <;> omega
  rw [drawSprite_large, register_setRegister, if_pos rfl, hcounted, UInt8.toNat_ofNat']
  omega

/-- As many rows of a large sprite lie below the screen as it reaches below the last row. -/
theorem countP_below {h y : Nat} (n : Nat) (hy : y < h) :
    (List.range n).countP (fun row => h ≤ y + row) = y + n - h := by
  induction n with
  | zero =>
    rw [List.range_zero, List.countP_nil]
    omega
  | succ n ih =>
    rw [List.range_succ, List.countP_append, ih, List.countP_singleton]
    by_cases hbelow : h ≤ y + n
    · simp [hbelow]
      omega
    · simp [hbelow]
      omega

/-- Drawing changes nothing but the screen and the flag register.  It flips exactly the pixels on
which a set bit of the sprite lands; and for a small sprite the flag register tells whether a lit
pixel became dark. -/
theorem draw_flips_sprite (n : Fin 16) :
    let s := c.screen
    let x := (c.register vx).toNat % s.width
    let y := (c.register vy).toNat % s.height
    let c' := c.execute ⟨.drw, [(vx : Nat), (vy : Nat), (n : Nat)]⟩
    (∀ px < s.width, ∀ py < s.height,
      c'.screen.pixel px py ≠ s.pixel px py ↔
        ∃ row col, c.spriteBit n row col = true ∧
          s.place c.dialect.spriteWrap (x + col) (y + row) = (px, py)) ∧
    (n ≠ 0 → c'.register flag =
      if ∃ px < s.width, ∃ py < s.height, s.pixel px py = true ∧ c'.screen.pixel px py = false
      then 1 else 0) ∧
    ∃ screen b, screen.resolution = s.resolution ∧ c' = { c with screen }.setRegister flag b := by
  intro s x y c'
  have hdrawn : c' = c.drawSprite vx vy n := execute_draw c vx vy n
  rw [hdrawn]
  refine ⟨fun px hpx py hpy => ?_, fun hn => ?_, ?_⟩
  · exact pixel_drawSprite_ne_iff c vx vy n.isLt hpx hpy
  · exact flag_drawSprite_small c vx vy (Fin.val_ne_zero_iff.2 hn) n.isLt
  · exact exists_drawSprite_eq c vx vy n

/-- After a large sprite is drawn, the flag register counts the rows that made a lit pixel dark and
the rows below the screen; of those it counts all if sprites wrap around, and one if they are
clipped. -/
theorem draw_counts_rows :
    let x := (c.register vx).toNat % c.screen.width
    let y := (c.register vy).toNat % c.screen.height
    let below := (List.range 16).countP fun row => c.screen.height ≤ y + row
    ((c.execute ⟨.drw, [(vx : Nat), (vy : Nat), 0]⟩).register flag).toNat =
      (List.range 16).countP (c.RowClears 0 x y ·) +
        if c.dialect.spriteWrap then below else min 1 below := by
  intro x y below
  have hdrawn : c.execute ⟨.drw, [(vx : Nat), (vy : Nat), 0]⟩ = c.drawSprite vx vy 0 :=
    execute_draw c vx vy 0
  have hbelow : below = y + 16 - c.screen.height := countP_below 16 (row_lt c vy)
  rw [hdrawn, flag_drawSprite_large, Screen.overhang, hbelow]

end Draw

/-- A large sprite that is clipped counts one of the rows below the screen only: with its corner in
the last row of the dark screen, fifteen rows lie below, and the flag register is one. -/
theorem draw_counts_one_clipped_row :
    let c := (Cpu.fresh .chip8 0).setRegister 1 31
    let x := (c.register 0).toNat % c.screen.width
    let y := (c.register 1).toNat % c.screen.height
    let below := (List.range 16).countP fun row => c.screen.height ≤ y + row
    below = 15 ∧ ((c.execute ⟨.drw, [0, 1, 0]⟩).register flag).toNat = 1 ∧
      ((c.execute ⟨.drw, [0, 1, 0]⟩).register flag).toNat ≠
        (List.range 16).countP (c.RowClears 0 x y ·) + below := by
  intro c x y below
  have hregister : c.register 1 = 31 := (register_setRegister _ 1 1 31).trans (if_pos rfl)
  have hy : y = 31 := by
    show (c.register 1).toNat % 32 = 31
    rw [hregister]
    rfl
  have hbelow : below = 15 := by
    show (List.range 16).countP (fun row => 32 ≤ y + row) = 15
    rw [hy]
    rfl
  have hcleared : (List.range 16).countP (c.RowClears 0 x y ·) = 0 := by
    refine List.countP_eq_zero.2 fun row _ hclears => ?_
    obtain ⟨col, -, -, hlit⟩ := of_decide_eq_true hclears
    have hdark : c.screen = Screen.dark .low := rfl
    dsimp only at hlit
    rw [hdark, Screen.pixel_dark] at hlit
    cases hlit
  have hflag : ((c.execute ⟨.drw, [0, 1, 0]⟩).register flag).toNat = 1 := by
    refine (congrArg (fun t : Cpu => (t.register flag).toNat) (execute_draw c 0 1 0)).trans ?_
    refine (flag_drawSprite_large c 0 1).trans ?_
    show (List.range 16).countP (c.RowClears 0 x y ·) + min 1 (y + 16 - 32) = 1
    rw [hcleared, hy]
    rfl
  refine ⟨hbelow, hflag, ?_⟩
  rw [hflag, hcleared, hbelow]
  decide

end ChipEight.Cpu
