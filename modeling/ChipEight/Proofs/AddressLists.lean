/-
Lists of addresses on the command line, read back.

Main definitions:
* `Items`: the items of a list, some of which write something and the others are blank;
* `IsPair`: what can be read as an address and a value;
* `WritesNumber`, `WritesPair`: what an item writes.

Main statements:
* `breakpoints_eq_ok_iff`, `pokes_eq_ok_iff`: what is read, item by item;
* `addresses_read_back`: what is written is read back, unless information separators stand around
  the numbers of a pair, and what is no number is refused.
-/
import ChipEight.CommandLine.Addresses
import ChipEight.Proofs.Literals
import Mathlib.Data.List.Forall2

namespace ChipEight.CommandLine

open Literal (IsHex)

/-! ## Items -/

/-- Items with commas between them. -/
def commaSeparated (items : List (List Char)) : List Char :=
  [','].intercalate items

/-- The items write the elements of a list in their order.  Any of the items may be blank and
write nothing. -/
inductive Items {α : Type} (writes : α → List Char → Prop) : List α → List (List Char) → Prop
  | nil : Items writes [] []
  | blank {as : List α} {item : List Char} {items : List (List Char)} :
    (∀ c ∈ item, Text.isBlank c) → Items writes as items → Items writes as (item :: items)
  | written {a : α} {as : List α} {item : List Char} {items : List (List Char)} :
    writes a item → Items writes as items → Items writes (a :: as) (item :: items)

section Items

variable {α β ε : Type} {writes : α → List Char → Prop} {as : List α} {items : List (List Char)}

theorem mapM_eq_ok_iff {f : α → Except ε β} {s : List α} {t : List β} :
    s.mapM f = .ok t ↔ List.Forall₂ (fun a b => f a = .ok b) s t := by
  induction s generalizing t with
  | nil =>
    rw [List.forall₂_nil_left_iff, List.mapM_nil]
    exact ⟨fun h => (Except.ok.inj h).symm, fun h => by rw [h]; rfl⟩
  | cons a s ih =>
    rw [List.forall₂_cons_left_iff, List.mapM_cons]
    constructor
    · intro h
      cases ha : f a with
      | error e =>
        rw [ha] at h
        cases h
      | ok b =>
        cases hs : s.mapM f with
        | error e =>
          rw [ha, hs] at h
          cases h
        | ok bs =>
          rw [ha, hs] at h
          exact ⟨b, bs, rfl, ih.1 hs, (Except.ok.inj h).symm⟩
    · rintro ⟨b, bs, ha, hs, rfl⟩
      rw [ha, ih.2 hs]
      rfl

/-- There is no comma in the items if there is none in what is written. -/
theorem Items.comma_not_mem (h : Items writes as items)
    (hwrites : ∀ a item, writes a item → ',' ∉ item) : ∀ item ∈ items, ',' ∉ item := by
  induction h with
  | nil => exact fun item hitem => absurd hitem List.not_mem_nil
  | blank hblank _ ih =>
    refine List.forall_mem_cons.2 ⟨fun hc => ?_, ih⟩
    exact absurd (hblank ',' hc) (by decide)
  | written hitem _ ih => exact List.forall_mem_cons.2 ⟨hwrites _ _ hitem, ih⟩

/-- The items that are not blank are those that write something. -/
theorem Items.forall₂ {reads : List Char → β → Prop} {f : α → β} (h : Items writes as items)
    (hwrites : ∀ a, ∀ item ∈ items, writes a item → Text.trim item ≠ [] ∧ reads item (f a)) :
    List.Forall₂ reads (items.filter fun item => Text.trim item ≠ []) (as.map f) := by
  induction h with
  | nil => exact .nil
  | blank hblank _ ih =>
    rw [List.filter_cons_of_neg (by simpa using Text.trim_of_blank hblank)]
    exact ih fun a item hitem => hwrites a item (List.mem_cons_of_mem _ hitem)
  | written hitem _ ih =>
    obtain ⟨hne, hreads⟩ := hwrites _ _ List.mem_cons_self hitem
    rw [List.filter_cons_of_pos (by simpa using hne), List.map_cons]
    exact .cons hreads (ih fun a item hitem => hwrites a item (List.mem_cons_of_mem _ hitem))

/-- Items that are distributed over texts are found in them. -/
theorem addressItems_commaSeparated {args : List (List (List Char))}
    (h : ∀ item ∈ args.flatten, ',' ∉ item) :
    addressItems (args.map commaSeparated) =
      args.flatten.filter fun item => Text.trim item ≠ [] := by
  rw [addressItems, List.flatMap_map, List.filter_flatten, List.flatMap_def]
  congr 1
  refine List.map_congr_left fun items hitems => ?_
  cases items with
  | nil => rfl
  | cons item items =>
    rw [commaSeparated, List.splitOn_intercalate ',' _ (List.cons_ne_nil item items)]
    exact fun other hother => h other (List.mem_flatten_of_mem hitems hother)

theorem mem_addressItems {texts : List (List Char)} {item : List Char} :
    item ∈ addressItems texts ↔
      item ∈ texts.flatMap (·.splitOn ',') ∧ ∃ c ∈ item, Text.isBlank c = false := by
  rw [addressItems, ← List.filter_flatMap, List.mem_filter, decide_eq_true_eq,
    Text.trim_ne_nil_iff]

end Items

/-! ## What an item is read as -/

/-- The item is a pair of hexadecimal literals with a colon between them. -/
def IsPair (item : List Char) (p : Int × UInt8) : Prop :=
  ∃ s t v, item = s ++ ':' :: t ∧ ':' ∉ s ∧ IsHex s p.1 ∧ IsHex t v ∧ p.2 = UInt8.ofInt v

section Read

variable {s t item : List Char} {v : Int} {p : Int × UInt8} {texts : List (List Char)}

theorem hexNumber_eq_ok_iff : hexNumber s = .ok v ↔ IsHex s v := by
  rw [← Literal.read_hex_eq_ok_iff, hexNumber]
  cases Literal.read .hex s <;> simp

theorem ne_colon_of_not_mem (h : ':' ∉ s) : ∀ c ∈ s, decide (c ≠ ':') = true := by
  intro c hc
  refine decide_eq_true ?_
  rintro rfl
  exact h hc

theorem poke_append (h : ':' ∉ s) :
    poke (s ++ ':' :: t) = do
      let address ← hexNumber s
      let v ← hexNumber t
      return (address, UInt8.ofInt v) := by
  have hs := ne_colon_of_not_mem h
  have htake : (s ++ ':' :: t).takeWhile (· ≠ ':') = s := by
    rw [List.takeWhile_append_of_pos hs, List.takeWhile_cons_of_neg (by decide), List.append_nil]
  have hdrop : (s ++ ':' :: t).dropWhile (· ≠ ':') = ':' :: t := by
    rw [List.dropWhile_append_of_pos hs, List.dropWhile_cons_of_neg (by decide)]
  rw [poke, hdrop]
  simp only [htake]

theorem poke_of_not_mem (h : ':' ∉ item) : poke item = .error (.notAPair item) := by
  have hdrop : item.dropWhile (· ≠ ':') = [] :=
    List.dropWhile_eq_nil_iff.2 (ne_colon_of_not_mem h)
  rw [poke, hdrop]

theorem poke_append_eq_ok_iff (hs : ':' ∉ s) :
    poke (s ++ ':' :: t) = .ok p ↔ ∃ v, IsHex s p.1 ∧ IsHex t v ∧ p.2 = UInt8.ofInt v := by
  rw [poke_append hs]
  constructor
  · intro h
    cases hleft : hexNumber s with
    | error e =>
      rw [hleft] at h
      cases h
    | ok a =>
      cases hright : hexNumber t with
      | error e =>
        rw [hleft, hright] at h
        cases h
      | ok v =>
        rw [hleft, hright] at h
        obtain rfl := Except.ok.inj h
        exact ⟨v, hexNumber_eq_ok_iff.1 hleft, hexNumber_eq_ok_iff.1 hright, rfl⟩
  · rintro ⟨v, hleft, hright, hp⟩
    rw [hexNumber_eq_ok_iff.2 hleft, hexNumber_eq_ok_iff.2 hright]
    exact congrArg Except.ok (Prod.ext rfl hp.symm)

theorem poke_eq_ok_iff : poke item = .ok p ↔ IsPair item p := by
  constructor
  · intro h
    by_cases hcolon : ':' ∈ item
    · obtain ⟨s, t, rfl, hs⟩ := List.eq_append_cons_of_mem hcolon
      obtain ⟨v, hv⟩ := (poke_append_eq_ok_iff hs).1 h
      exact ⟨s, t, v, rfl, hs, hv⟩
    · rw [poke_of_not_mem hcolon] at h
      cases h
  · rintro ⟨s, t, v, rfl, hs, hv⟩
    exact (poke_append_eq_ok_iff hs).2 ⟨v, hv⟩

theorem breakpoints_eq_ok_iff {addresses : List Int} :
    breakpoints texts = .ok addresses ↔
      List.Forall₂ (fun item v => IsHex (Text.trim item) v) (addressItems texts) addresses := by
  simp only [breakpoints, mapM_eq_ok_iff, breakpoint, hexNumber_eq_ok_iff]

theorem pokes_eq_ok_iff {pairs : List (Int × UInt8)} :
    pokes texts = .ok pairs ↔ List.Forall₂ IsPair (addressItems texts) pairs := by
  simp only [pokes, mapM_eq_ok_iff, poke_eq_ok_iff]

end Read

/-! ## What is refused -/

section Refused

variable {ε α : Type} {texts : List (List Char)} {item : List Char}

theorem exists_error_of_ne_ok {x : Except ε α} (h : ∀ a, x ≠ .ok a) : ∃ e, x = .error e := by
  cases x with
  | ok a => exact absurd rfl (h a)
  | error e => exact ⟨e, rfl⟩

theorem exists_of_mem_of_forall₂ {β γ : Type} {R : β → γ → Prop} {s : List β} {t : List γ} {b : β}
    (h : List.Forall₂ R s t) (hb : b ∈ s) : ∃ c, R b c := by
  obtain ⟨i, hi, rfl⟩ := List.getElem_of_mem hb
  exact ⟨_, h.get hi (h.length_eq ▸ hi)⟩

/-- A list with an item that is neither blank nor a literal is refused. -/
theorem breakpoints_refused (hitem : item ∈ addressItems texts)
    (h : ∀ v, ¬IsHex (Text.trim item) v) : ∃ e, breakpoints texts = .error e := by
  refine exists_error_of_ne_ok fun addresses hok => ?_
  obtain ⟨v, hv⟩ := exists_of_mem_of_forall₂ (breakpoints_eq_ok_iff.1 hok) hitem
  exact h v hv

/-- A list with an item that is neither blank nor a pair of literals is refused. -/
theorem pokes_refused (hitem : item ∈ addressItems texts) (h : ∀ p, ¬IsPair item p) :
    ∃ e, pokes texts = .error e := by
  refine exists_error_of_ne_ok fun pairs hok => ?_
  obtain ⟨p, hp⟩ := exists_of_mem_of_forall₂ (pokes_eq_ok_iff.1 hok) hitem
  exact h p hp

theorem IsPair.colon_mem {p : Int × UInt8} (h : IsPair item p) : ':' ∈ item := by
  obtain ⟨s, t, v, rfl, -⟩ := h
  simp

/-- There is no information separator in a pair of literals. -/
theorem IsPair.isSeparator_eq_false {p : Int × UInt8} (h : IsPair item p) :
    ∀ c ∈ item, Literal.isSeparator c = false := by
  obtain ⟨s, t, v, rfl, -, hleft, hright, -⟩ := h
  intro c hc
  rw [List.mem_append, List.mem_cons] at hc
  rcases hc with hc | rfl | hc
  · exact hleft.isSeparator_eq_false c hc
  · rfl
  · exact hright.isSeparator_eq_false c hc

end Refused

/-! ## What is written -/

/-- The text is a number, written in hexadecimal with blanks around it. -/
def WritesNumber (n : Nat) : List Char → Prop :=
  Text.Surrounded Text.isBlank (Literal.Writes n)

/-- The item is an address and a value with a colon between them, both written in hexadecimal with
blanks around them. -/
def WritesPair (p : Nat × Nat) (item : List Char) : Prop :=
  ∃ s t, item = s ++ ':' :: t ∧ WritesNumber p.1 s ∧ WritesNumber p.2 t

section Written

variable {n : Nat} {s item : List Char} {p : Nat × Nat}

theorem writesNumber_of_all (before text after : List Char)
    (hbefore : before.all Text.isBlank) (hafter : after.all Text.isBlank)
    (h : Literal.Writes n text) : WritesNumber n (before ++ text ++ after) :=
  ⟨before, text, after, rfl, List.all_eq_true.1 hbefore, List.all_eq_true.1 hafter, h⟩

theorem WritesNumber.ne_mark (h : WritesNumber n s) : ∀ c ∈ s, c ≠ ',' ∧ c ≠ ':' := by
  have hmark (c : Char) (hc : Text.isBlank c) : c ≠ ',' ∧ c ≠ ':' := by
    constructor <;>
    · rintro rfl
      exact absurd hc (by decide)
  obtain ⟨before, text, after, rfl, hbefore, hafter, htext⟩ := h
  intro c hc
  rw [List.mem_append, List.mem_append] at hc
  rcases hc with (hc | hc) | hc
  · exact hmark c (hbefore c hc)
  · exact htext.signed.forall_mem (p := fun c => c ≠ ',' ∧ c ≠ ':') (by decide) (by decide) c hc
  · exact hmark c (hafter c hc)

/-- Without the blanks around it, a number is read back. -/
theorem WritesNumber.trim (h : WritesNumber n s) :
    Text.trim s ≠ [] ∧ IsHex (Text.trim s) n := by
  obtain ⟨before, text, after, rfl, hbefore, hafter, htext⟩ := h
  have hblank := htext.signed.forall_mem (p := fun c => Text.isBlank c = false) (by decide)
    (by decide)
  have htrim : Text.trim (before ++ text ++ after) = text := by
    rw [Text.trim_append_blanks hafter, Text.trim_blanks_append hbefore]
    exact Text.trim_eq_self (fun c t ht => hblank c (by simp [ht]))
      fun c t ht => hblank c (by simp [ht])
  rw [htrim]
  refine ⟨htext.signed.ne_nil, Literal.isHex_of_surrounded ⟨[], text, [], ?_, ?_, ?_, htext⟩⟩
  · rw [List.nil_append, List.append_nil]
  · exact fun c hc => absurd hc List.not_mem_nil
  · exact fun c hc => absurd hc List.not_mem_nil

/-- With blanks around it that are no information separators, a number is read back. -/
theorem WritesNumber.isHex (h : WritesNumber n s)
    (hs : ∀ c ∈ s, Literal.isSeparator c = false) : IsHex s n := by
  refine Literal.isHex_of_surrounded (h.imp fun c hc hblank => ?_)
  rw [hblank, hs c hc]
  rfl

theorem WritesNumber.comma_not_mem (h : WritesNumber n s) : ',' ∉ s :=
  fun hc => (h.ne_mark ',' hc).1 rfl

theorem WritesPair.colon_mem (h : WritesPair p item) : ':' ∈ item := by
  obtain ⟨s, t, rfl, -⟩ := h
  simp

theorem WritesPair.comma_not_mem (h : WritesPair p item) : ',' ∉ item := by
  obtain ⟨s, t, rfl, hleft, hright⟩ := h
  intro hc
  rw [List.mem_append, List.mem_cons] at hc
  rcases hc with hc | hc | hc
  · exact hleft.comma_not_mem hc
  · exact absurd hc (by decide)
  · exact hright.comma_not_mem hc

theorem ofInt_natCast (v : Nat) : UInt8.ofInt v = UInt8.ofNat (v % 256) := by
  rw [UInt8.ofInt]
  congr 1

/-- A pair is read back if there are no information separators in it. -/
theorem WritesPair.isPair (h : WritesPair p item)
    (hitem : ∀ c ∈ item, Literal.isSeparator c = false) :
    Text.trim item ≠ [] ∧ IsPair item (p.1, UInt8.ofNat (p.2 % 256)) := by
  obtain ⟨s, t, rfl, hleft, hright⟩ := h
  refine ⟨fun htrim => ?_, s, t, p.2, rfl, fun hc => (hleft.ne_mark ':' hc).2 rfl,
    hleft.isHex fun c hc => hitem c (by simp [hc]),
    hright.isHex fun c hc => hitem c (by simp [hc]), (ofInt_natCast p.2).symm⟩
  exact Text.trim_ne_nil_iff.2 ⟨':', by simp, by decide⟩ htrim

end Written

/-- Numbers that are written in hexadecimal, in small letters or capitals and with the mark or
without it, are read back in their order, however they are distributed over texts, with any blanks
around them and any blank items between them.  Addresses and values with colons between them are
read back in the same way, the values as bytes, unless an information separator stands around a
number: then they are refused.  Lists with any other item are refused. -/
theorem addresses_read_back (args : List (List (List Char))) (texts : List (List Char)) :
    (∀ addresses : List Nat, Items WritesNumber addresses args.flatten →
      breakpoints (args.map commaSeparated) = .ok (addresses.map (Nat.cast : Nat → Int))) ∧
    (∀ pairs : List (Nat × Nat), Items WritesPair pairs args.flatten →
      ((∀ item ∈ args.flatten, (∃ c ∈ item, Text.isBlank c = false) →
          ∀ c ∈ item, Literal.isSeparator c = false) →
        pokes (args.map commaSeparated) =
          .ok (pairs.map fun p => ((p.1 : Int), UInt8.ofNat (p.2 % 256)))) ∧
      ((∃ item ∈ args.flatten, (∃ c ∈ item, Text.isBlank c = false) ∧
          ∃ c ∈ item, Literal.isSeparator c = true) →
        ∃ e, pokes (args.map commaSeparated) = .error e)) ∧
    (∀ item ∈ texts.flatMap (·.splitOn ','), (∃ c ∈ item, Text.isBlank c = false) →
      (∀ v, ¬IsHex (Text.trim item) v) → ∃ e, breakpoints texts = .error e) ∧
    (∀ item ∈ texts.flatMap (·.splitOn ','), (∃ c ∈ item, Text.isBlank c = false) →
      (':' ∉ item ∨ ∃ s t, item = s ++ ':' :: t ∧ ':' ∉ s ∧
        ((∀ v, ¬IsHex s v) ∨ ∀ v, ¬IsHex t v)) →
      ∃ e, pokes texts = .error e) := by
  refine ⟨fun addresses h => ?_, fun pairs h => ⟨fun hseparator => ?_, ?_⟩,
    fun item hitem hblank h => ?_, fun item hitem hblank h => ?_⟩
  · rw [breakpoints_eq_ok_iff,
      addressItems_commaSeparated (h.comma_not_mem fun n item => WritesNumber.comma_not_mem)]
    exact h.forall₂ fun n item _ hitem => hitem.trim
  · rw [pokes_eq_ok_iff,
      addressItems_commaSeparated (h.comma_not_mem fun p item => WritesPair.comma_not_mem)]
    exact h.forall₂ fun p item hmem hitem =>
      hitem.isPair (hseparator item hmem ⟨':', hitem.colon_mem, rfl⟩)
  · rintro ⟨item, hitem, hblank, c, hc, hseparator⟩
    have hmem : item ∈ addressItems (args.map commaSeparated) := by
      rw [addressItems_commaSeparated (h.comma_not_mem fun p item => WritesPair.comma_not_mem)]
      exact List.mem_filter.2 ⟨hitem, decide_eq_true (Text.trim_ne_nil_iff.2 hblank)⟩
    refine pokes_refused hmem fun p hp => ?_
    rw [hp.isSeparator_eq_false c hc] at hseparator
    cases hseparator
  · exact breakpoints_refused (mem_addressItems.2 ⟨hitem, hblank⟩) h
  · refine pokes_refused (mem_addressItems.2 ⟨hitem, hblank⟩) fun p hp => ?_
    rcases h with hcolon | ⟨s, t, rfl, hs, hnone⟩
    · exact hcolon hp.colon_mem
    · obtain ⟨v, hleft, hright, -⟩ := (poke_append_eq_ok_iff hs).1 (poke_eq_ok_iff.2 hp)
      rcases hnone with hnone | hnone
      · exact hnone _ hleft
      · exact hnone _ hright

/-- Three texts with numbers, one of them empty; two texts with pairs, one of which has a blank item;
an item that is no number; and an item without a colon. -/
theorem addresses_read_back_of_texts :
    let args := [["2a0".toList, " 0X2b4 ".toList], ["".toList], ["\x1c2B8\n".toList]]
    let pairs := [["1ff:1".toList, "\t".toList], [" 0x300 :0FFe ".toList]]
    (Items WritesNumber [0x2a0, 0x2b4, 0x2b8] args.flatten ∧
      breakpoints (args.map commaSeparated) = .ok [0x2a0, 0x2b4, 0x2b8]) ∧
    (Items WritesPair [(0x1ff, 1), (0x300, 0xffe)] pairs.flatten ∧
      pokes (pairs.map commaSeparated) = .ok [(0x1ff, 1), (0x300, 0xfe)]) ∧
    (∃ e, breakpoints ["2a0,2g".toList] = .error e) ∧ ∃ e, pokes ["300:1,301".toList] = .error e := by
  intro args pairs
  have hargs : Items WritesNumber [0x2a0, 0x2b4, 0x2b8] args.flatten := by
    refine .written (writesNumber_of_all [] "2a0".toList [] rfl rfl (.bare ⟨0, by decide⟩)) ?_
    refine .written (writesNumber_of_all [' '] "0X2b4".toList [' '] rfl rfl
      (.marked (.inr rfl) ⟨0, by decide⟩)) ?_
    refine .blank (List.all_eq_true.1 rfl) ?_
    exact .written (writesNumber_of_all "\x1c".toList "2B8".toList ['\n'] rfl rfl
      (.bare ⟨0, by decide⟩)) .nil
  have hpairs : Items WritesPair [(0x1ff, 1), (0x300, 0xffe)] pairs.flatten := by
    refine .written ⟨"1ff".toList, "1".toList, rfl, ?_, ?_⟩ (.blank (List.all_eq_true.1 rfl) ?_)
    · exact writesNumber_of_all [] "1ff".toList [] rfl rfl (.bare ⟨0, by decide⟩)
    · exact writesNumber_of_all [] "1".toList [] rfl rfl (.bare ⟨0, by decide⟩)
    refine .written ⟨" 0x300 ".toList, "0FFe ".toList, rfl, ?_, ?_⟩ .nil
    · exact writesNumber_of_all [' '] "0x300".toList [' '] rfl rfl
        (.marked (.inl rfl) ⟨0, by decide⟩)
    · exact writesNumber_of_all [] "0FFe".toList [' '] rfl rfl (.bare ⟨1, by decide⟩)
  have hseparator : ∀ item ∈ pairs.flatten, ∀ c ∈ item, Literal.isSeparator c = false := by
    have hall : pairs.flatten.all (fun item => item.all fun c => !Literal.isSeparator c) := by decide
    intro item hitem c hc
    simpa using List.all_eq_true.1 (List.all_eq_true.1 hall item hitem) c hc
  refine ⟨⟨hargs, (addresses_read_back args []).1 _ hargs⟩, ⟨hpairs, ?_⟩, ?_, ?_⟩
  · exact ((addresses_read_back pairs []).2.1 _ hpairs).1 fun item hitem _ => hseparator item hitem
  · refine (addresses_read_back [] ["2a0,2g".toList]).2.2.1 "2g".toList (by decide)
      ⟨'2', by decide, rfl⟩ fun v h => ?_
    have hread : Literal.read .hex (Text.trim "2g".toList) =
        .error (.malformed .hex "2g".toList) := by decide
    rw [Literal.read_hex_eq_ok_iff.2 h] at hread
    cases hread
  · exact (addresses_read_back [] ["300:1,301".toList]).2.2.2 "301".toList (by decide)
      ⟨'3', by decide, rfl⟩ (.inl (by decide))

/-- An address and a value behind an information separator, which is blank, are refused, while an
address alone is read. -/
theorem separated_address_refused :
    Items WritesPair [(0x301, 2)] ["\x1c301:2".toList] ∧
      pokes [commaSeparated ["\x1c301:2".toList]] =
        .error (.literal (.malformed .hex "\x1c301".toList)) ∧
      breakpoints [commaSeparated ["\x1c301".toList]] = .ok [0x301] := by
  refine ⟨.written ⟨"\x1c301".toList, "2".toList, rfl, ?_, ?_⟩ .nil, by decide, by decide⟩
  · exact writesNumber_of_all "\x1c".toList "301".toList [] rfl rfl (.bare ⟨0, by decide⟩)
  · exact writesNumber_of_all [] "2".toList [] rfl rfl (.bare ⟨0, by decide⟩)

end ChipEight.CommandLine
