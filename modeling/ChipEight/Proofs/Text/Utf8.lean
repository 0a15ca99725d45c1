/-
Bytes that are a text.

Bytes can be decoded exactly if they are the bytes of a text, and then that is the text they are
decoded to.

Main definition: `Represents`, the bytes that represent a character.

Main statements:
* `represents_utf8EncodeChar`, `eq_utf8EncodeChar_of_represents`: the bytes of a character;
* `decode_eq_ok_iff`, `exists_decode_eq_error_iff`: the bytes of a text.
-/
import ChipEight.Text.Utf8

namespace ChipEight.Text.Utf8

/-! ## The bytes of a text -/

theorem toList_loop (bytes : ByteArray) (i : Nat) (done : List UInt8) :
    ByteArray.toList.loop bytes i done = done.reverse ++ bytes.data.toList.drop i := by
  fun_induction ByteArray.toList.loop bytes i done with
  | case1 i done h ih =>
    have hi : i < bytes.data.toList.length := by simpa using h
    rw [ih, List.drop_eq_getElem_cons hi]
    simp [ByteArray.get!, h]
  | case2 i done h =>
    have hi : bytes.data.toList.length ≤ i := by simpa using h
    rw [List.drop_eq_nil_of_le hi, List.append_nil]

theorem encode_eq_flatMap (s : List Char) : encode s = s.flatMap String.utf8EncodeChar := by
  rw [encode, String.toUTF8, String.toByteArray_ofList, List.utf8Encode, ByteArray.toList,
    toList_loop, List.toList_data_toByteArray]
  rfl

theorem encode_cons (c : Char) (s : List Char) :
    encode (c :: s) = String.utf8EncodeChar c ++ encode s := by
  simp only [encode_eq_flatMap, List.flatMap_cons]

/-! ## The bytes of a character -/

theorem isContinuation_iff {b : UInt8} : isContinuation b ↔ 0x80 ≤ b.toNat ∧ b.toNat < 0xC0 := by
  simp [isContinuation, UInt8.le_iff_toNat_le, UInt8.lt_iff_toNat_lt]

/-- The bytes are those of the character with a code point. -/
inductive Represents : List UInt8 → Nat → Prop
  | one {b : UInt8} : b.toNat < 0x80 → Represents [b] b.toNat
  | two {b c : UInt8} : 0xC2 ≤ b.toNat ∧ b.toNat < 0xE0 → isContinuation c →
    Represents [b, c] (b.toNat % 32 * 64 + payload c)
  | three {b c d : UInt8} : 0xE0 ≤ b.toNat ∧ b.toNat < 0xF0 → isContinuation c →
    isContinuation d → (b.toNat = 0xE0 → 0xA0 ≤ c.toNat) → (b.toNat = 0xED → c.toNat < 0xA0) →
    Represents [b, c, d] (b.toNat % 16 * 4096 + payload c * 64 + payload d)
  | four {b c d e : UInt8} : 0xF0 ≤ b.toNat ∧ b.toNat < 0xF5 → isContinuation c →
    isContinuation d → isContinuation e → (b.toNat = 0xF0 → 0x90 ≤ c.toNat) →
    (b.toNat = 0xF4 → c.toNat < 0x90) →
    Represents [b, c, d, e]
      (b.toNat % 8 * 262144 + payload c * 4096 + payload d * 64 + payload e)

theorem represents_of_character {b : UInt8} {s : List UInt8} {n k : Nat}
    (h : character b s = .ok (n, k)) : Represents (b :: s.take k) n := by
  simp only [character, UInt8.lt_iff_toNat_lt, UInt8.le_iff_toNat_le, Bool.or_eq_true,
    Bool.and_eq_true, beq_iff_eq, ← UInt8.toNat_inj, Bool.not_eq_true', decide_eq_true_eq,
    UInt8.reduceToNat] at h
  repeat' split at h
  -- Without the faults there is one case for each number of bytes.
  all_goals cases h
  · exact .one ‹_›
  · exact .two (by omega) ‹_›
  · rename_i hsecond _ _ _ _
    simp only [not_or, not_and, Bool.not_eq_false] at hsecond
    exact .three (by omega) hsecond.1.1 ‹_› (by omega) (by omega)
  · rename_i hsecond _ _ hthird _ _ _ _
    simp only [not_or, not_and, Bool.not_eq_false] at hsecond hthird
    exact .four (by omega) hsecond.1.1 hthird ‹_› (by omega) (by omega)

/-- A byte that continues a character is not refused as its second one, unless it is too low or too
high behind certain first ones. -/
theorem second_admitted {b c : UInt8} (low least high bound : UInt8) (hc : isContinuation c)
    (hlow : b.toNat = low.toNat → least.toNat ≤ c.toNat)
    (hhigh : b.toNat = high.toNat → c.toNat < bound.toNat) :
    (!isContinuation c || (b == low && c < least) || (b == high && bound ≤ c)) = false := by
  rw [Bool.eq_false_iff]
  simp only [hc, ne_eq, Bool.or_eq_true, Bool.and_eq_true, beq_iff_eq, ← UInt8.toNat_inj,
    decide_eq_true_eq, UInt8.lt_iff_toNat_lt, UInt8.le_iff_toNat_le, Bool.not_true,
    Bool.false_eq_true, false_or]
  omega

theorem character_of_represents {bytes : List UInt8} {n : Nat} (h : Represents bytes n) :
    ∃ b t, bytes = b :: t ∧ ∀ rest, character b (t ++ rest) = .ok (n, t.length) := by
  cases h with
  | @one b hb =>
    refine ⟨_, _, rfl, fun rest => ?_⟩
    simp only [character, UInt8.lt_iff_toNat_lt, UInt8.reduceToNat]
    rw [if_pos hb]
    rfl
  | @two b c hb hc =>
    refine ⟨_, _, rfl, fun rest => ?_⟩
    simp only [character, UInt8.lt_iff_toNat_lt, UInt8.reduceToNat, List.cons_append]
    rw [if_neg (by omega), if_neg (by omega), if_pos hb.2, if_pos hc]
    rfl
  | @three b c d hb hc hd hlow hhigh =>
    refine ⟨_, _, rfl, fun rest => ?_⟩
    have hsecond := second_admitted 0xE0 0xA0 0xED 0xA0 hc hlow hhigh
    simp only [character, UInt8.lt_iff_toNat_lt (a := b), UInt8.reduceToNat, List.cons_append]
    rw [if_neg (by omega), if_neg (by omega), if_neg (by omega), if_pos hb.2, hsecond,
      if_neg Bool.false_ne_true, if_pos hd]
    rfl
  | @four b c d e hb hc hd he hlow hhigh =>
    refine ⟨_, _, rfl, fun rest => ?_⟩
    have hsecond := second_admitted 0xF0 0x90 0xF4 0x90 hc hlow hhigh
    simp only [character, UInt8.lt_iff_toNat_lt (a := b), UInt8.reduceToNat, List.cons_append]
    rw [if_neg (by omega), if_neg (by omega), if_neg (by omega), if_neg (by omega), if_pos hb.2,
      hsecond, if_neg Bool.false_ne_true, hd, Bool.not_true, if_neg Bool.false_ne_true, if_pos he]
    rfl

theorem represents_utf8EncodeChar (c : Char) : Represents (String.utf8EncodeChar c) c.toNat := by
  have hvalid : c.val.toNat < 0xD800 ∨ 0xDFFF < c.val.toNat ∧ c.val.toNat < 0x110000 := c.valid
  rw [String.utf8EncodeChar, Char.toNat]
  generalize c.val.toNat = n at hvalid
  -- The cases are the numbers of bytes; each byte carries what is left of the code point.
  have hsize : UInt8.size = 256 := rfl
  by_cases h1 : n ≤ 0x7F
  · rw [if_pos h1]
    have hb := UInt8.toNat_ofNat_of_lt' (n := n) (by omega)
    have h := Represents.one (b := UInt8.ofNat n) (by omega)
    rwa [hb] at h
  · rw [if_neg h1]
    have hlast := UInt8.toNat_ofNat_of_lt' (n := n % 0x40 + 0x80) (by omega)
    by_cases h2 : n ≤ 0x7FF
    · rw [if_pos h2]
      have hb := UInt8.toNat_ofNat_of_lt' (n := n / 64 % 0x20 + 0xC0) (by omega)
      have h := Represents.two (b := UInt8.ofNat (n / 64 % 0x20 + 0xC0))
        (c := UInt8.ofNat (n % 0x40 + 0x80)) (by omega) (isContinuation_iff.2 (by omega))
      rw [payload, hb, hlast] at h
      have hn : (n / 64 % 0x20 + 0xC0) % 32 * 64 + (n % 0x40 + 0x80) % 64 = n := by omega
      rwa [hn] at h
    · rw [if_neg h2]
      have hthird := UInt8.toNat_ofNat_of_lt' (n := n / 64 % 0x40 + 0x80) (by omega)
      by_cases h3 : n ≤ 0xFFFF
      · rw [if_pos h3]
        have hb := UInt8.toNat_ofNat_of_lt' (n := n / 4096 % 0x10 + 0xE0) (by omega)
        have h := Represents.three (b := UInt8.ofNat (n / 4096 % 0x10 + 0xE0))
          (c := UInt8.ofNat (n / 64 % 0x40 + 0x80)) (d := UInt8.ofNat (n % 0x40 + 0x80))
          (by omega) (isContinuation_iff.2 (by omega)) (isContinuation_iff.2 (by omega))
          (by omega) (by omega)
        rw [payload, payload, hb, hthird, hlast] at h
        have hn : (n / 4096 % 0x10 + 0xE0) % 16 * 4096 + (n / 64 % 0x40 + 0x80) % 64 * 64 +
            (n % 0x40 + 0x80) % 64 = n := by omega
        rwa [hn] at h
      · rw [if_neg h3]
        have hb := UInt8.toNat_ofNat_of_lt' (n := n / 262144 % 0x08 + 0xF0) (by omega)
        have hsecond := UInt8.toNat_ofNat_of_lt' (n := n / 4096 % 0x40 + 0x80) (by omega)
        have h := Represents.four (b := UInt8.ofNat (n / 262144 % 0x08 + 0xF0))
          (c := UInt8.ofNat (n / 4096 % 0x40 + 0x80)) (d := UInt8.ofNat (n / 64 % 0x40 + 0x80))
          (e := UInt8.ofNat (n % 0x40 + 0x80))
          (by omega) (isContinuation_iff.2 (by omega)) (isContinuation_iff.2 (by omega))
          (isContinuation_iff.2 (by omega)) (by omega) (by omega)
        rw [payload, payload, payload, hb, hsecond, hthird, hlast] at h
        have hn : (n / 262144 % 0x08 + 0xF0) % 8 * 262144 + (n / 4096 % 0x40 + 0x80) % 64 * 4096 +
            (n / 64 % 0x40 + 0x80) % 64 * 64 + (n % 0x40 + 0x80) % 64 = n := by omega
        rwa [hn] at h

theorem toNat_val_ofNat {n : Nat} (h : n.isValidChar) : (Char.ofNat n).val.toNat = n := by
  rw [Char.ofNat, dif_pos h]
  rfl

/-- The number of a byte that continues a character. -/
theorem toNat_of_isContinuation {b : UInt8} (h : isContinuation b) :
    b.toNat = payload b + 0x80 ∧ payload b < 0x40 := by
  rw [isContinuation_iff] at h
  rw [payload]
  omega

/-- Only the bytes of a character represent it. -/
theorem eq_utf8EncodeChar_of_represents {bytes : List UInt8} {n : Nat} (h : Represents bytes n) :
    bytes = String.utf8EncodeChar (Char.ofNat n) := by
  rw [String.utf8EncodeChar]
  cases h with
  | @one b hb =>
    have hval := toNat_val_ofNat (n := b.toNat) (by rw [Nat.isValidChar]; omega)
    rw [hval, if_pos (by omega), UInt8.ofNat_toNat]
  | @two b c hb hc =>
    obtain ⟨hlast, hc⟩ := toNat_of_isContinuation hc
    generalize hn : b.toNat % 32 * 64 + payload c = n
    have hval := toNat_val_ofNat (n := n) (by rw [Nat.isValidChar]; omega)
    have hb' : n / 64 % 0x20 + 0xC0 = b.toNat := by omega
    have hc' : n % 0x40 + 0x80 = c.toNat := by omega
    rw [hval, if_neg (by omega), if_pos (by omega), hb', hc', UInt8.ofNat_toNat, UInt8.ofNat_toNat]
  | @three b c d hb hc hd hlow hhigh =>
    obtain ⟨hsecond, hc⟩ := toNat_of_isContinuation hc
    obtain ⟨hlast, hd⟩ := toNat_of_isContinuation hd
    generalize hn : b.toNat % 16 * 4096 + payload c * 64 + payload d = n
    have hval := toNat_val_ofNat (n := n) (by rw [Nat.isValidChar]; omega)
    have hb' : n / 4096 % 0x10 + 0xE0 = b.toNat := by omega
    have hc' : n / 64 % 0x40 + 0x80 = c.toNat := by omega
    have hd' : n % 0x40 + 0x80 = d.toNat := by omega
    rw [hval, if_neg (by omega), if_neg (by omega), if_pos (by omega), hb', hc', hd',
      UInt8.ofNat_toNat, UInt8.ofNat_toNat, UInt8.ofNat_toNat]
  | @four b c d e hb hc hd he hlow hhigh =>
    obtain ⟨hsecond, hc⟩ := toNat_of_isContinuation hc
    obtain ⟨hthird, hd⟩ := toNat_of_isContinuation hd
    obtain ⟨hlast, he⟩ := toNat_of_isContinuation he
    generalize hn : b.toNat % 8 * 262144 + payload c * 4096 + payload d * 64 + payload e = n
    have hval := toNat_val_ofNat (n := n) (by rw [Nat.isValidChar]; omega)
    have hb' : n / 262144 % 0x08 + 0xF0 = b.toNat := by omega
    have hc' : n / 4096 % 0x40 + 0x80 = c.toNat := by omega
    have hd' : n / 64 % 0x40 + 0x80 = d.toNat := by omega
    have he' : n % 0x40 + 0x80 = e.toNat := by omega
    rw [hval, if_neg (by omega), if_neg (by omega), if_neg (by omega), hb', hc', hd', he',
      UInt8.ofNat_toNat, UInt8.ofNat_toNat, UInt8.ofNat_toNat, UInt8.ofNat_toNat]

/-- The bytes of a character are read as it. -/
theorem character_utf8EncodeChar (c : Char) :
    ∃ b t, String.utf8EncodeChar c = b :: t ∧
      ∀ rest, character b (t ++ rest) = .ok (c.toNat, t.length) :=
  character_of_represents (represents_utf8EncodeChar c)

/-! ## Texts -/

theorem decodeFrom_encode (position : Nat) (text : List Char) :
    decodeFrom position (encode text) = .ok text := by
  induction text generalizing position with
  | nil =>
    rw [encode_eq_flatMap, List.flatMap_nil, decodeFrom]
  | cons c text ih =>
    obtain ⟨b, t, hbytes, hread⟩ := character_utf8EncodeChar c
    rw [encode_cons, hbytes, List.cons_append, decodeFrom, hread]
    dsimp only
    -- What follows the character are the bytes of the other ones.
    rw [List.drop_left, ih, Char.ofNat_toNat]
    rfl

theorem eq_encode_of_decodeFrom {position : Nat} {bytes : List UInt8} {text : List Char}
    (h : decodeFrom position bytes = .ok text) : bytes = encode text := by
  fun_induction decodeFrom position bytes generalizing text with
  | case1 =>
    cases h
    rw [encode_eq_flatMap, List.flatMap_nil]
  | case2 => cases h
  | case3 position b s n k hc ih =>
    cases hrest : decodeFrom (position + k + 1) (s.drop k) with
    | error e =>
      rw [hrest] at h
      cases h
    | ok rest =>
      rw [hrest] at h
      cases h
      rw [encode_cons, ← eq_utf8EncodeChar_of_represents (represents_of_character hc),
        ← ih hrest, List.cons_append, List.take_append_drop]

/-- Bytes are decoded to a text exactly if they are its bytes. -/
theorem decode_eq_ok_iff {bytes : List UInt8} {text : List Char} :
    decode bytes = .ok text ↔ bytes = encode text := by
  constructor
  · exact eq_encode_of_decodeFrom
  · rintro rfl
    exact decodeFrom_encode 0 text

/-- Bytes cannot be decoded exactly if they are the bytes of no text. -/
theorem exists_decode_eq_error_iff {bytes : List UInt8} :
    (∃ e, decode bytes = .error e) ↔ ∀ text, bytes ≠ encode text := by
  simp only [ne_eq, ← decode_eq_ok_iff]
  cases decode bytes <;> simp

end ChipEight.Text.Utf8
