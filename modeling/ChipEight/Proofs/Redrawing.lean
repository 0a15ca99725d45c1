/-
Drawing a sprite twice.

To draw a sprite flips the pixels on which its set bits land.  The drawing changes none of what it
reads, unless the flag register is one of its coordinates, so a second drawing flips the same pixels
again and leaves the screen as it was.  The lit pixels that it finds are those that were dark before
the first one.

Main definitions:
* `Cpu.spritePlace`: where a bit of a sprite lands;
* `Cpu.Lands`: a set bit of a sprite lands on the screen.

Main statements:
* `Cpu.flag_draw_eq_one_iff`: what the flag register tells after a small sprite is drawn;
* `Cpu.pixel_draw_of_lands`: a pixel on which a set bit lands is flipped;
* `Cpu.lands_draw_iff`: a sprite lands on the same pixels when it is drawn again;
* `Cpu.draw_undoes_draw`: what is left of two drawings.
-/
import ChipEight.Proofs.Screen.Pixels
import ChipEight.Proofs.Sprites

namespace ChipEight

/-- The place is on the screen. -/
def Screen.Contains (s : Screen) (p : Nat × Nat) : Prop :=
  p.1 < s.width ∧ p.2 < s.height

namespace Cpu

/-- The processor after it has executed the instruction that draws a sprite of height `n`. -/
def draw (c : Cpu) (vx vy n : Fin 16) : Cpu :=
  c.perform ⟨.drw, [(vx : Nat), (vy : Nat), (n : Nat)]⟩

/-- Where the bit in column `col` of row `row` of a sprite lands, if the corner of the sprite stands
where two registers tell. -/
def spritePlace (c : Cpu) (vx vy : Fin 16) (row col : Nat) : Nat × Nat :=
  c.screen.place c.dialect.spriteWrap ((c.register vx).toNat % c.screen.width + col)
    ((c.register vy).toNat % c.screen.height + row)

/-- The pixel on which a bit of a sprite lands; it is dark if the bit does not land on the screen. -/
def spritePixel (c : Cpu) (vx vy : Fin 16) (row col : Nat) : Bool :=
  c.screen.pixel (c.spritePlace vx vy row col).1 (c.spritePlace vx vy row col).2

/-- A set bit of the sprite lands on the screen. -/
def Lands (c : Cpu) (vx vy n : Fin 16) (row col : Nat) : Prop :=
  c.spriteBit n row col = true ∧ c.screen.Contains (c.spritePlace vx vy row col)

variable {c : Cpu} {vx vy n : Fin 16} {row col px py : Nat}

/-! ## One drawing -/

theorem draw_eq (c : Cpu) (vx vy n : Fin 16) : c.draw vx vy n = c.advance.drawSprite vx vy n :=
  execute_draw c.advance vx vy n

theorem resolution_draw (c : Cpu) (vx vy n : Fin 16) :
    (c.draw vx vy n).screen.resolution = c.screen.resolution := by
  obtain ⟨screen, b, hresolution, h⟩ := exists_drawSprite_eq c.advance vx vy n
  rw [draw_eq, h]
  exact hresolution

theorem width_draw (c : Cpu) (vx vy n : Fin 16) :
    (c.draw vx vy n).screen.width = c.screen.width :=
  congrArg Resolution.width (resolution_draw c vx vy n)

theorem height_draw (c : Cpu) (vx vy n : Fin 16) :
    (c.draw vx vy n).screen.height = c.screen.height :=
  congrArg Resolution.height (resolution_draw c vx vy n)

theorem dialect_draw (c : Cpu) (vx vy n : Fin 16) : (c.draw vx vy n).dialect = c.dialect := by
  rw [draw_eq, dialect_drawSprite]
  rfl

theorem register_draw {r : Fin 16} (hr : r ≠ flag) :
    (c.draw vx vy n).register r = c.register r := by
  obtain ⟨screen, b, -, h⟩ := exists_drawSprite_eq c.advance vx vy n
  rw [draw_eq, h]
  exact register_setRegister_of_ne hr b

/-- Where a bit lands depends on the coordinates, the resolution and the dialect only. -/
theorem spritePlace_congr {c' : Cpu} (hr : c'.screen.resolution = c.screen.resolution)
    (hd : c'.dialect = c.dialect) (hx : c'.register vx = c.register vx)
    (hy : c'.register vy = c.register vy) :
    c'.spritePlace vx vy row col = c.spritePlace vx vy row col := by
  rw [spritePlace, spritePlace, Screen.place, Screen.place, Screen.width, Screen.width,
    Screen.height, Screen.height, hx, hy, hr, hd]

/-- Drawing flips exactly the pixels on which a set bit lands. -/
theorem pixel_draw_ne_iff_lands (c : Cpu) (vx vy n : Fin 16) (hpx : px < c.screen.width)
    (hpy : py < c.screen.height) :
    (c.draw vx vy n).screen.pixel px py ≠ c.screen.pixel px py ↔
      ∃ row col, c.spriteBit n row col = true ∧ c.spritePlace vx vy row col = (px, py) := by
  rw [draw_eq]
  exact pixel_drawSprite_ne_iff c.advance vx vy n.isLt hpx hpy

/-- A pixel on which a set bit lands is flipped. -/
theorem pixel_draw_of_lands (h : c.Lands vx vy n row col) :
    (c.draw vx vy n).screen.pixel (c.spritePlace vx vy row col).1
      (c.spritePlace vx vy row col).2 = !c.spritePixel vx vy row col := by
  have hflipped := (pixel_draw_ne_iff_lands c vx vy n h.2.1 h.2.2).2 ⟨row, col, h.1, rfl⟩
  exact Bool.eq_not_of_ne hflipped

/-- After a small sprite is drawn, the flag register tells whether a lit pixel has become dark. -/
theorem flag_draw (hn : n ≠ 0) :
    (c.draw vx vy n).register flag =
      if ∃ px < c.screen.width, ∃ py < c.screen.height, c.screen.pixel px py = true ∧
        (c.draw vx vy n).screen.pixel px py = false then 1 else 0 := by
  rw [draw_eq]
  exact flag_drawSprite_small c.advance vx vy (Fin.val_ne_zero_iff.2 hn) n.isLt

/-- The flag register tells whether a set bit has found a lit pixel. -/
theorem flag_draw_eq_one_iff (hn : n ≠ 0) :
    (c.draw vx vy n).register flag = 1 ↔
      ∃ row col, c.Lands vx vy n row col ∧ c.spritePixel vx vy row col = true := by
  rw [flag_draw hn]
  constructor
  · intro h
    split at h
    · rename_i hdark
      obtain ⟨px, hpx, py, hpy, hlit, hdark⟩ := hdark
      have hflipped : (c.draw vx vy n).screen.pixel px py ≠ c.screen.pixel px py := by
        rw [hdark]
        exact fun heq => Bool.false_ne_true (heq.trans hlit)
      obtain ⟨row, col, hbit, hplace⟩ := (pixel_draw_ne_iff_lands c vx vy n hpx hpy).1 hflipped
      refine ⟨row, col, ⟨hbit, ?_⟩, ?_⟩
      · rw [hplace]
        exact ⟨hpx, hpy⟩
      · rwa [spritePixel, hplace]
    · cases h
  · rintro ⟨row, col, hlands, hlit⟩
    have hdark := pixel_draw_of_lands hlands
    rw [hlit] at hdark
    exact if_pos ⟨_, hlands.2.1, _, hlands.2.2, hlit, hdark⟩

/-- The flag register tells nothing else. -/
theorem flag_draw_eq_zero_iff (hn : n ≠ 0) :
    (c.draw vx vy n).register flag = 0 ↔ ¬(c.draw vx vy n).register flag = 1 := by
  rw [flag_draw hn]
  split <;> decide

/-! ## Two drawings -/

section Redraw

variable (hx : vx ≠ flag) (hy : vy ≠ flag)

theorem spriteBit_draw : (c.draw vx vy n).spriteBit n row col = c.spriteBit n row col := by
  obtain ⟨screen, b, -, h⟩ := exists_drawSprite_eq c.advance vx vy n
  rw [draw_eq, h]
  rfl

include hx hy

/-- A bit lands on the same place when the sprite is drawn again, unless the flag register is one of
its coordinates. -/
theorem spritePlace_draw :
    (c.draw vx vy n).spritePlace vx vy row col = c.spritePlace vx vy row col :=
  spritePlace_congr (resolution_draw c vx vy n) (dialect_draw c vx vy n) (register_draw hx)
    (register_draw hy)

/-- The same set bits land on the screen when the sprite is drawn again. -/
theorem lands_draw_iff : (c.draw vx vy n).Lands vx vy n row col ↔ c.Lands vx vy n row col := by
  rw [Lands, Lands, spriteBit_draw, spritePlace_draw hx hy, Screen.Contains, Screen.Contains,
    width_draw, height_draw]

/-- To draw a sprite twice leaves the screen as it was. -/
theorem screen_draw_draw : ((c.draw vx vy n).draw vx vy n).screen = c.screen := by
  have hresolution := (resolution_draw (c.draw vx vy n) vx vy n).trans (resolution_draw c vx vy n)
  refine Screen.ext_pixel hresolution fun py hpy px hpx => ?_
  rw [height_draw] at hpy
  rw [width_draw] at hpx
  have htwice := pixel_draw_ne_iff_lands (c.draw vx vy n) vx vy n hpx hpy
  rw [height_draw] at hpy
  rw [width_draw] at hpx
  have honce := pixel_draw_ne_iff_lands c vx vy n hpx hpy
  simp only [spriteBit_draw, spritePlace_draw hx hy, ← honce] at htwice
  -- A pixel that is flipped by both or by none is what it was.
  generalize ((c.draw vx vy n).draw vx vy n).screen.pixel px py = last at htwice ⊢
  generalize (c.draw vx vy n).screen.pixel px py = middle at htwice
  generalize c.screen.pixel px py = first at htwice ⊢
  revert htwice
  cases first <;> cases middle <;> cases last <;> decide

/-- The second drawing finds a lit pixel exactly if a set bit found a dark one in the first. -/
theorem flag_draw_draw_eq_one_iff (hn : n ≠ 0) :
    ((c.draw vx vy n).draw vx vy n).register flag = 1 ↔
      ∃ row col, c.Lands vx vy n row col ∧ c.spritePixel vx vy row col = false := by
  refine (flag_draw_eq_one_iff hn).trans (exists_congr fun row => exists_congr fun col => ?_)
  rw [lands_draw_iff hx hy]
  refine and_congr_right fun hlands => ?_
  rw [spritePixel, spritePlace_draw hx hy, pixel_draw_of_lands hlands, Bool.not_eq_true']

end Redraw

/-- To draw a sprite twice leaves the screen as it was, if the flag register is none of its
coordinates.  For a small sprite the second drawing finds a lit pixel exactly if a set bit that
lands on the screen found its pixel dark in the first; and neither drawing finds a lit pixel exactly
if no set bit lands on the screen. -/
theorem draw_undoes_draw (c : Cpu) (vx vy n : Fin 16) (hx : vx ≠ flag) (hy : vy ≠ flag) :
    let once := c.perform ⟨.drw, [(vx : Nat), (vy : Nat), (n : Nat)]⟩
    let twice := once.perform ⟨.drw, [(vx : Nat), (vy : Nat), (n : Nat)]⟩
    twice.screen = c.screen ∧
    (n ≠ 0 →
      (twice.register flag = 1 ↔
        ∃ row col, c.Lands vx vy n row col ∧ c.spritePixel vx vy row col = false) ∧
      (once.register flag = 0 ∧ twice.register flag = 0 ↔
        ∀ row col, ¬c.Lands vx vy n row col)) := by
  intro once twice
  have honce : once = c.draw vx vy n := rfl
  have htwice : twice = (c.draw vx vy n).draw vx vy n := rfl
  rw [honce, htwice]
  refine ⟨screen_draw_draw hx hy, fun hn => ⟨flag_draw_draw_eq_one_iff hx hy hn, ?_⟩⟩
  rw [flag_draw_eq_zero_iff hn, flag_draw_eq_zero_iff hn, flag_draw_eq_one_iff hn,
    flag_draw_draw_eq_one_iff hx hy hn]
  constructor
  · rintro ⟨hlit, hdark⟩ row col hlands
    cases hpixel : c.spritePixel vx vy row col with
    | false => exact hdark ⟨row, col, hlands, hpixel⟩
    | true => exact hlit ⟨row, col, hlands, hpixel⟩
  · intro hnone
    exact ⟨fun ⟨row, col, hlands, _⟩ => hnone row col hlands,
      fun ⟨row, col, hlands, _⟩ => hnone row col hlands⟩

/-- A row of eight set bits is drawn twice on the dark screen, in column 60, so that the last four
are clipped: the second drawing finds lit pixels, and leaves the screen dark. -/
theorem draw_undoes_draw_of_clipped_row :
    let start := { Cpu.fresh .chip8 0 with
      memory := Memory.fresh.write 0x300 0xFF, index := 0x300 }
    let c := start.setRegister 0 60
    let once := c.perform ⟨.drw, [((0 : Fin 16) : Nat), ((1 : Fin 16) : Nat), ((1 : Fin 16) : Nat)]⟩
    let twice :=
      once.perform ⟨.drw, [((0 : Fin 16) : Nat), ((1 : Fin 16) : Nat), ((1 : Fin 16) : Nat)]⟩
    (0 : Fin 16) ≠ flag ∧ (1 : Fin 16) ≠ flag ∧ (1 : Fin 16) ≠ 0 ∧
      twice.screen = Screen.dark .low ∧ twice.register flag = 1 := by
  intro start c once twice
  have hx : (0 : Fin 16) ≠ flag := by decide
  have hy : (1 : Fin 16) ≠ flag := by decide
  obtain ⟨hscreen, hflags⟩ := draw_undoes_draw c 0 1 1 hx hy
  have hbyte : c.memory.read (c.index + (0 : Nat)) = 0xFF :=
    Memory.read_write_self Memory.fresh 0x300 0xFF
  have hbit : c.spriteBit 1 0 0 = true := by
    rw [spriteBit_small (by decide), hbyte]
    decide
  have hplace : c.spritePlace 0 1 0 0 = (60, 0) := by
    have hsixty : c.register 0 = 60 := (register_setRegister start 0 0 60).trans (if_pos rfl)
    have hzero : c.register 1 = 0 := (register_setRegister start 0 1 60).trans (if_neg (by decide))
    rw [spritePlace, hsixty, hzero]
    rfl
  have hlands : c.Lands 0 1 1 0 0 := by
    refine ⟨hbit, ?_⟩
    rw [hplace]
    exact ⟨by decide, by decide⟩
  have hdark : c.spritePixel 0 1 0 0 = false := Screen.pixel_dark .low _ _
  exact ⟨hx, hy, by decide, hscreen, (hflags (by decide)).1.2 ⟨0, 0, hlands, hdark⟩⟩

end Cpu

end ChipEight
