/-
The parts of instructions on a processor laid out flat do what they do on the processor.

Each statement tells that a checked operation on `c.flat` succeeds, and that what it leaves is the
processor after the operation, laid out flat.

Main statements:
* `forEach_flat`: a loop succeeds if its body does;
* `storeBlock_flat`, `loadBlock_flat`, `saveBlock_flat`, `restoreBlock_flat`: blocks of registers;
* `scrollDown_flat`, `scrollRight_flat`, `scrollLeft_flat`: the scrolls.
-/
import ChipEight.Proofs.Flat.Execute
import ChipEight.Proofs.Screen.Scrolls

namespace ChipEight

/-! ## Blocks of cells and registers -/

theorem Memory.writeBlock_append (m : Memory) (a : Int) (s t : List UInt8) :
    m.writeBlock a (s ++ t) = (m.writeBlock a s).writeBlock (a + s.length) t := by
  induction s generalizing m a with
  | nil => simp [writeBlock]
  | cons b s ih =>
    rw [List.cons_append, writeBlock, ih, writeBlock, List.length_cons]
    congr 1
    omega

namespace Cpu

theorem setBlock_append (c : Cpu) (k : Nat) (s t : List UInt8) :
    c.setBlock k (s ++ t) = (c.setBlock k s).setBlock (k + s.length) t := by
  induction s generalizing c k with
  | nil => rfl
  | cons b s ih =>
    rw [List.cons_append, setBlock, ih, setBlock, List.length_cons]
    congr 1
    omega

end Cpu

namespace Flat

variable {c : Cpu}

/-! ## Registers, cells and keys -/

theorem register_flat (x : Fin 16) : c.flat.register x.val = .ok ((c.register x).toNat : Int) :=
  access_numbers _ x

theorem setRegister_flat (x : Fin 16) {v : Int} (h : IsByte v) :
    c.flat.setRegister x.val v = .ok (c.setRegister x (UInt8.ofInt v)).flat := by
  have hu : update c.flat.registers x.val v = _ := update_numbers c.registers x h
  rw [setRegister, hu]
  rfl

theorem setFlag_flat (condition : Bool) :
    c.flat.setFlag condition = .ok (c.setFlag condition).flat := by
  cases condition with
  | true => exact setRegister_flat Cpu.flag ⟨by decide, by decide⟩
  | false => exact setRegister_flat Cpu.flag ⟨by decide, by decide⟩

theorem cell_val (a : Int) : ((Memory.cell a).val : Int) = a % 4096 := by
  simp only [Memory.cell]
  omega

theorem read_flat (a : Int) : c.flat.read a = .ok ((c.memory.read a).toNat : Int) := by
  rw [read, ← cell_val]
  exact access_numbers _ _

theorem write_flat (a v : Int) :
    c.flat.write a v =
      .ok { c with memory := c.memory.write a (UInt8.ofInt v) }.flat := by
  have hu : update c.flat.memory (Memory.cell a).val (v % 256) = _ :=
    update_numbers c.memory.cells (Memory.cell a) (isByte_emod v)
  have hv : UInt8.ofInt (v % 256) = UInt8.ofInt v := by
    refine ofInt_of_emod ?_
    rw [toNat_ofInt_eq_emod]
    omega
  rw [write, ← cell_val, hu, hv]
  rfl

theorem read16_flat (a : Int) : c.flat.read16 a = .ok (c.memory.read16 a : Int) := by
  rw [read16, read_flat, ok_bind, read_flat, ok_bind, Memory.read16]
  push_cast
  rfl

theorem isHeld_flat (x : Fin 16) :
    c.flat.isHeld x.val = .ok (c.isHeld (Cpu.key (c.register x).toNat)) := by
  have hk : (((c.register x).toNat : Int) % 16) = ((Cpu.key (c.register x).toNat).val : Int) := by
    simp only [Cpu.key]
    omega
  have hl : (Cpu.key (c.register x).toNat).val < c.flat.keys.length := by
    simp [Cpu.flat]
  rw [isHeld, register_flat, ok_bind, hk, access_natCast hl]
  simp [Cpu.flat, Cpu.isHeld]

theorem advance_flat : c.flat.advance = c.advance.flat := rfl

theorem skipIf_flat (condition : Bool) : c.flat.skipIf condition = (c.skipIf condition).flat := by
  cases condition <;> rfl

/-! ## Blocks -/

/-- A loop succeeds if every round of it does; `g k` is the processor after `k` rounds. -/
theorem forEach_flat {n : Nat} {b : Nat → Flat → Except Fault Flat} {g : Nat → Cpu}
    (h : ∀ k < n, b k (g k).flat = .ok (g (k + 1)).flat) :
    (g 0).flat.forEach n b = .ok (g n).flat := by
  induction n with
  | zero => rfl
  | succ n ih =>
    have ih' := ih fun k hk => h k (by omega)
    rw [forEach] at ih' ⊢
    rw [List.range_succ, List.foldlM_append, ih', ok_bind, List.foldlM_cons, h n (by omega)]
    rfl

theorem ofInt_natCast (n : Nat) : UInt8.ofInt (n : Int) = UInt8.ofNat n := by
  refine ofInt_of_emod ?_
  rw [UInt8.toNat_ofNat']
  omega

theorem ofInt_toNat (b : UInt8) : UInt8.ofInt (b.toNat : Int) = b := by
  have hb := b.toNat_lt
  exact ofInt_of_emod (by omega)

theorem passBlock_flat (last : Int) : c.flat.passBlock last = (c.passBlock last).flat := by
  rw [passBlock, Cpu.passBlock]
  change (if c.dialect.indexAdvance then _ else _) = _
  split <;> rfl

theorem take_succ {n : Nat} (v : Vector UInt8 n) (k : Fin n) :
    v.toList.take (k.val + 1) = v.toList.take k.val ++ [v.get k] := by
  rw [List.take_add_one, List.getElem?_eq_getElem (by simp), Option.toList_some,
    Vector.getElem_toList]
  rfl

theorem length_take {n : Nat} (v : Vector UInt8 n) (k : Fin n) :
    (v.toList.take k.val).length = k.val := by
  simp

theorem storeBlock_flat (x : Fin 16) : c.flat.storeBlock x.val = .ok (c.storeBlock x.val).flat := by
  let g (k : Nat) : Cpu :=
    { c with memory := c.memory.writeBlock c.index (c.registers.toList.take k) }
  have hloop := forEach_flat (n := x.val + 1) (g := g)
    (b := fun k f => do f.write (f.index + k) (← f.register k)) ?_
  · have hn : ((x.val : Int) + 1).toNat = x.val + 1 := by omega
    rw [storeBlock, hn, show c.flat = (g 0).flat from rfl, hloop, ok_bind, passBlock_flat,
      Cpu.storeBlock, Cpu.block, Cpu.blockLength_val]
    rfl
  · intro k hk
    have hr : (g k).flat.register k = _ := register_flat (c := g k) ⟨k, by omega⟩
    rw [hr, ok_bind, write_flat, ofInt_toNat]
    have ht := take_succ c.registers ⟨k, by omega⟩
    have hl := length_take c.registers ⟨k, by omega⟩
    simp only [g, ht, Memory.writeBlock_append, hl, Memory.writeBlock]
    rfl

theorem loadBlock_flat (x : Fin 16) : c.flat.loadBlock x.val = .ok (c.loadBlock x.val).flat := by
  let bytes (n : Nat) := (List.range n).map fun (k : Nat) => c.memory.read (c.index + k)
  let g (k : Nat) : Cpu := c.setBlock 0 (bytes k)
  have hloop := forEach_flat (n := x.val + 1) (g := g)
    (b := fun k f => do f.setRegister k (← f.read (f.index + k))) ?_
  · have hn : ((x.val : Int) + 1).toNat = x.val + 1 := by omega
    rw [loadBlock, hn, show c.flat = (g 0).flat from rfl, hloop, ok_bind, passBlock_flat,
      Cpu.loadBlock, Cpu.blockLength_val]
    rfl
  · intro k hk
    obtain ⟨registers, hg⟩ := Cpu.exists_setBlock_eq c 0 (bytes k)
    have hr : (g k).flat.read ((g k).flat.index + k) = .ok _ := read_flat (c := g k) _
    have hm : (g k).memory.read ((g k).flat.index + k) = c.memory.read (c.index + k) := by
      simp only [g, hg, Cpu.flat]
    have hs := setRegister_flat (c := g k) ⟨k, by omega⟩
      (isByte_toNat (c.memory.read (c.index + k)))
    dsimp only at hs ⊢
    rw [hr, ok_bind, hm, hs, ofInt_toNat]
    simp only [g, bytes, List.range_succ, List.map_append, List.map_cons, List.map_nil,
      Cpu.setBlock_append, List.length_map, List.length_range, Nat.zero_add, Cpu.setBlock]
    rw [dif_pos (by omega)]

theorem saveBlock_flat (x : Fin 16) : c.flat.saveBlock x.val = .ok (c.saveBlock x.val).flat := by
  let saved (n : Nat) : Vector UInt8 8 :=
    Vector.ofFn fun j => if j.val < n then c.register (j.castLE (by decide)) else c.saved[j]
  let g (k : Nat) : Cpu := { c with saved := saved k }
  have hn : (min (x.val : Int) 7 + 1).toNat = min x.val 7 + 1 := by omega
  have hloop := forEach_flat (n := min x.val 7 + 1) (g := g)
    (b := fun k f => do f.setSaved k (← f.register k)) ?_
  · have h0 : c.flat = (g 0).flat := by
      have hs : saved 0 = c.saved := by
        apply Vector.ext
        intro j hj
        simp [saved]
      simp only [g, hs]
    have hsave : c.saveBlock x.val = g (min x.val 7 + 1) := by
      simp only [Cpu.saveBlock, g, saved]
      congr 2
      funext j
      have hj := j.isLt
      by_cases hle : j.val ≤ x.val
      · rw [if_pos (by omega), if_pos (by omega)]
      · rw [if_neg (by omega), if_neg (by omega)]
    rw [saveBlock, hn, h0, hloop, hsave]
  · intro k hk
    have hr : (g k).flat.register k = _ := register_flat (c := g k) ⟨k, by omega⟩
    have hu : update (g k).flat.saved k (c.register ⟨k, by omega⟩).toNat = _ :=
      update_numbers (saved k) ⟨k, by omega⟩ (isByte_toNat (c.register ⟨k, by omega⟩))
    have hset : (saved k).set k (c.register ⟨k, by omega⟩) = saved (k + 1) := by
      apply Vector.ext
      intro j hj
      by_cases hkj : k = j
      · subst hkj
        simp [saved]
      · have hlt : j < k + 1 ↔ j < k := by omega
        simp only [saved, Vector.getElem_set_ne _ _ hkj, Vector.getElem_ofFn, hlt]
    rw [hr, ok_bind]
    dsimp only [g, Cpu.register] at hu hset ⊢
    rw [setSaved, hu, ok_bind, ofInt_toNat, hset]
    rfl

theorem restoreBlock_flat (x : Fin 16) :
    c.flat.restoreBlock x.val = .ok (c.restoreBlock x.val).flat := by
  let g (k : Nat) : Cpu := c.setBlock 0 (c.saved.toList.take k)
  have hn : (min (x.val : Int) 7 + 1).toNat = min x.val 7 + 1 := by omega
  have hloop := forEach_flat (n := min x.val 7 + 1) (g := g)
    (b := fun k f => do f.setRegister k (← access f.saved k)) ?_
  · have hrestore : c.restoreBlock x.val = g (min x.val 7 + 1) := by
      simp only [Cpu.restoreBlock, Cpu.blockLength_val, g]
      congr 1
      rw [List.take_eq_take_iff]
      simp only [Vector.length_toList]
      omega
    rw [restoreBlock, hn, show c.flat = (g 0).flat from rfl, hloop, hrestore]
  · intro k hk
    obtain ⟨registers, hg⟩ := Cpu.exists_setBlock_eq c 0 (c.saved.toList.take k)
    have hsaved : (g k).flat.saved = numbers c.saved := by
      simp only [g, hg, Cpu.flat]
    have ha := access_numbers c.saved ⟨k, by omega⟩
    have hs := setRegister_flat (c := g k) ⟨k, by omega⟩ (isByte_toNat (c.saved.get ⟨k, by omega⟩))
    have ht := take_succ c.saved ⟨k, by omega⟩
    have hl := length_take c.saved ⟨k, by omega⟩
    dsimp only at ha hs ht hl ⊢
    rw [hsaved, ha, ok_bind]
    refine hs.trans ?_
    rw [ofInt_toNat]
    simp only [g, ht, Cpu.setBlock_append, hl, Nat.zero_add, Cpu.setBlock]
    rw [dif_pos (by omega)]

theorem storeDecimal_flat (x : Fin 16) :
    c.flat.storeDecimal x.val = .ok (c.storeDecimal x).flat := by
  have hdigit : ∀ (v : UInt8) (d : Nat), d < 256 → d ≠ 0 →
      ((v.toNat : Int) / d % 10) = ((v / UInt8.ofNat d % 10).toNat : Int) := by
    intro v d hd h0
    rw [UInt8.toNat_mod, UInt8.toNat_div, UInt8.toNat_ofNat', Nat.mod_eq_of_lt hd]
    push_cast
    rfl
  have hunits : ((c.register x).toNat : Int) % 10 = ((c.register x % 10).toNat : Int) := by
    rw [UInt8.toNat_mod]
    push_cast
    rfl
  have hhundreds := hdigit (c.register x) 100 (by decide) (by decide)
  have htens := hdigit (c.register x) 10 (by decide) (by decide)
  push_cast at hhundreds htens
  rw [storeDecimal, register_flat, ok_bind, hhundreds, htens, hunits, write_flat, ofInt_toNat,
    ok_bind, write_flat, ofInt_toNat, ok_bind, write_flat, ofInt_toNat]
  have hlast : c.index + 1 + 1 = c.index + 2 := by omega
  simp only [Cpu.storeDecimal, Memory.writeBlock, hlast]
  rfl

/-! ## Arithmetic -/

section Arithmetic

variable {x y : Fin 16} {z : UInt8}

theorem setRegister_toNat (x : Fin 16) (z : UInt8) :
    c.flat.setRegister x.val (z.toNat : Int) = .ok (c.setRegister x z).flat := by
  rw [setRegister_flat x (isByte_toNat z), ofInt_toNat]

theorem operate_flat {result : Int → Int → Int} {flag : Int → Int → Bool} {condition : Bool}
    (hr : result (c.register x).toNat (c.register y).toNat = z.toNat)
    (hf : flag (c.register x).toNat (c.register y).toNat = condition) :
    c.flat.operate x.val y.val result flag = .ok (c.setResult x z condition).flat := by
  rw [operate, register_flat, ok_bind, register_flat, ok_bind, hr, hf, setRegister_toNat, ok_bind,
    setFlag_flat, Cpu.setResult]

theorem bitwise_flat {result : Int → Int → Int}
    (hr : result (c.register x).toNat (c.register y).toNat = z.toNat) :
    c.flat.bitwise x.val y.val result = .ok (c.setBitwise x z).flat := by
  rw [bitwise, register_flat, ok_bind, register_flat, ok_bind, hr, setRegister_toNat, ok_bind,
    Cpu.setBitwise]
  have hzero := setRegister_toNat (c := c.setRegister x z) Cpu.flag 0
  change (if c.dialect.flagReset then _ else _) =
    Except.ok (if c.dialect.flagReset then _ else _ : Cpu).flat
  split
  · exact hzero
  · rfl

theorem setRegister_setRegister (x : Fin 16) (a b : UInt8) :
    (c.setRegister x a).setRegister x b = c.setRegister x b := by
  simp [Cpu.setRegister]

theorem shift_flat {result : Int → Int} {out : Int → Bool} {condition : Bool}
    (hr : result (c.register (c.shiftSource x y)).toNat = z.toNat)
    (ho : out (c.register (c.shiftSource x y)).toNat = condition) :
    c.flat.shift x.val y.val result out = .ok (c.setResult x z condition).flat := by
  have hd : c.flat.dialect = c.dialect := rfl
  cases hs : c.dialect.shiftInPlace with
  | true =>
    have hsource : c.shiftSource x y = x := by rw [Cpu.shiftSource, hs, if_pos rfl]
    rw [hsource] at hr ho
    rw [shift, hd, hs, if_pos rfl]
    change (c.flat.register x.val >>= _) = _
    rw [register_flat, ok_bind, hr, ho, setRegister_toNat, ok_bind, setFlag_flat, Cpu.setResult]
  | false =>
    have hsource : c.shiftSource x y = y := by
      rw [Cpu.shiftSource, hs, if_neg Bool.false_ne_true]
    rw [hsource] at hr ho
    rw [shift, hd, hs, if_neg Bool.false_ne_true, register_flat, ok_bind, setRegister_toNat,
      ok_bind]
    dsimp only
    rw [register_flat, ok_bind, Cpu.register_setRegister, if_pos rfl, hr, ho, setRegister_toNat,
      ok_bind, setRegister_setRegister, setFlag_flat, Cpu.setResult]

theorem addIndex_flat (x : Fin 16) : c.flat.addIndex x.val = .ok (c.addIndex x).flat := by
  rw [addIndex, register_flat, ok_bind]
  dsimp only
  rw [setFlag_flat]
  rfl

theorem drawRandom_flat (x : Fin 16) {most : Int} (h : IsByte most) :
    c.flat.drawRandom x.val most = .ok (c.drawRandom x most).flat := by
  obtain ⟨h0, h1⟩ := h
  have hlt : (c.random.below (most + 1).toNat).1 < (most + 1).toNat :=
    Random.below_lt (by omega) c.random
  have hb : IsByte ((c.random.below (most + 1).toNat).1 : Int) := ⟨by omega, by omega⟩
  have hs := setRegister_flat
    (c := { c with random := (c.random.below (most + 1).toNat).2 }) x hb
  rw [drawRandom, if_neg (by omega)]
  refine hs.trans ?_
  have hk : UInt8.ofInt ((c.random.below (most + 1).toNat).1 : Int) =
      UInt8.ofNat (c.random.below (most + 1).toNat).1 := ofInt_natCast _
  rw [hk]
  rfl

theorem findIdx?_ofFn {n : Nat} (p : Fin n → Bool) :
    (List.ofFn p).findIdx? id = ((List.finRange n).filter p).head?.map Fin.val := by
  induction n with
  | zero => rfl
  | succ n ih =>
    rw [List.ofFn_succ, List.findIdx?_cons, List.finRange_succ, List.filter_cons]
    cases hp : p 0 with
    | true => simp
    | false =>
      rw [id_eq, if_neg Bool.false_ne_true, if_neg Bool.false_ne_true, ih, List.filter_map,
        List.head?_map, Option.map_map, Option.map_map]
      rfl

/-- The first key that is held has the lowest number. -/
theorem findIdx?_keys (c : Cpu) : c.flat.keys.findIdx? id = c.heldKeys.head?.map Fin.val := by
  have hkeys : c.flat.keys = List.ofFn c.isHeld := by
    refine List.ext_getElem (by simp [Cpu.flat, -List.ofFn_succ]) fun k hk hk' => ?_
    simp [Cpu.flat, Cpu.isHeld, -List.ofFn_succ]
  rw [hkeys, findIdx?_ofFn, Cpu.heldKeys]

theorem awaitKey_flat (x : Fin 16) : c.flat.awaitKey x.val = .ok (c.awaitKey x).flat := by
  rw [awaitKey, Cpu.awaitKey, findIdx?_keys]
  cases c.heldKeys with
  | nil => rfl
  | cons k s =>
    have hk : IsByte (k.val : Int) := ⟨by omega, by omega⟩
    have hs := setRegister_flat (c := c) x hk
    rwa [ofInt_natCast] at hs

end Arithmetic

/-! ## The screen -/

section Scrolls

/-- A processor with another screen of the same size differs in the pixels. -/
theorem flat_screen {s : Screen} (h : s.resolution = c.screen.resolution) :
    { c with screen := s }.flat = { c.flat with pixels := s.pixels } := by
  simp only [Cpu.flat, Screen.width, Screen.height, h]

theorem darken_flat :
    { c.flat with pixels := List.replicate c.flat.pixels.length false } =
      { c with screen := Screen.dark c.screen.resolution }.flat := by
  have hl : c.flat.pixels.length = c.screen.height * c.screen.width := Screen.length_pixels _
  rw [flat_screen (s := Screen.dark c.screen.resolution) rfl, Screen.pixels_dark, hl]

theorem setResolution_flat (r : Resolution) :
    c.flat.setResolution (r = .high) = { c with screen := Screen.dark r }.flat := by
  have hp := Screen.pixels_dark r
  cases r <;> simp only [setResolution, Cpu.flat, hp] <;> rfl

theorem scrollDown_flat (n : Int) :
    c.flat.scrollDown n = { c with screen := c.screen.scrollDown n.toNat }.flat := by
  rw [flat_screen (s := c.screen.scrollDown n.toNat) rfl, Screen.pixels_scrollDown]
  rfl

theorem mapRows_flat {g : List Bool → List Bool} {s : Screen}
    (hr : s.resolution = c.screen.resolution)
    (h : ∀ y, s.rowPixels y = g (c.screen.rowPixels y)) :
    c.flat.mapRows g = .ok { c with screen := s }.flat := by
  have hs : s.pixels = (List.range c.screen.height).flatMap fun y => g (c.screen.rowPixels y) := by
    rw [Screen.pixels_eq_flatMap, Screen.height, hr]
    exact congrArg List.flatten (List.map_congr_left fun y _ => h y)
  have hw : 0 < c.flat.width := c.screen.resolution.width_pos
  rw [flat_screen hr, hs, ← Screen.flatMap_chunks_pixels, mapRows, dif_pos hw]
  rfl

theorem scrollRight_flat :
    c.flat.mapRows (rowRight c.flat.width) = .ok { c with screen := c.screen.scrollRight }.flat :=
  mapRows_flat rfl fun y => Screen.rowPixels_scrollRight c.screen y

theorem scrollLeft_flat :
    c.flat.mapRows rowLeft = .ok { c with screen := c.screen.scrollLeft }.flat :=
  mapRows_flat rfl fun y => Screen.rowPixels_scrollLeft c.screen y

end Scrolls

end Flat

end ChipEight
