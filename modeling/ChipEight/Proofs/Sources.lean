/-
Files as sources of programs.

A source file is assembled, or it is unusable since it cannot be read or its text cannot be
assembled, or it is unfit to be a source at all: its bytes are no text, or its path cannot be handed
to the system.

Main definitions:
* `Directory.Writable`: a file can be written to a path;
* `Directory.Assembles`, `Directory.Unusable`, `Directory.Unfit`: what a source file is good for.

Main statements:
* `Directory.Writable.exists_write`: whether a file can be written does not depend on its bytes;
* `Directory.read_eq_error`: what is wrong with a file that cannot be read;
* `Directory.readText_cases`: the text of a file, or why there is none.
-/
import ChipEight.Proofs.Text.Utf8
import ChipEight.Source

namespace ChipEight

namespace Directory

variable {d : Directory} {path : List Char}

/-! ## Reading and writing -/

/-- A file can be written to the path. -/
def Writable (d : Directory) (path : List Char) : Prop :=
  ∃ d', d.write path [] = .ok d'

/-- Whether a file can be written does not depend on its bytes. -/
theorem Writable.exists_write (h : d.Writable path) (bytes : Image) :
    ∃ d', d.write path bytes = .ok d' := by
  obtain ⟨d', h⟩ := h
  unfold write at h ⊢
  cases hr : d.resolve path with
  | error f =>
    rw [hr] at h
    cases h
  | ok parts =>
    rw [hr] at h
    dsimp only at h ⊢
    split at h
    · cases h
    · split at h
      · cases h
      · split at h
        · cases h
        · rw [if_neg ‹_›, if_neg ‹_›]
          exact ⟨_, rfl⟩

theorem walk_ne_nullCharacter (here rest : List (List Char)) :
    d.walk here rest ≠ .error .nullCharacter := by
  induction rest generalizing here with
  | nil => simp [walk]
  | cons part rest ih =>
    rw [walk]
    split
    · simp
    · split
      · simp
      · split
        · exact ih _
        · simp
        · simp

theorem resolve_eq_nullCharacter_iff :
    d.resolve path = .error .nullCharacter ↔ '\x00' ∈ path := by
  rw [resolve]
  by_cases hnull : '\x00' ∈ path
  · rw [if_pos (List.contains_iff_mem.2 hnull)]
    exact iff_of_true rfl hnull
  · rw [if_neg (mt List.contains_iff_mem.1 hnull)]
    refine iff_of_false ?_ hnull
    split
    · simp
    · split
      · simp
      · exact walk_ne_nullCharacter _ _

/-- What is wrong with a file that cannot be read. -/
theorem read_eq_error {e : PathError} (h : d.read path = .error e) :
    e.path = path ∧ (e.fault = .nullCharacter ↔ '\x00' ∈ path) := by
  rw [← resolve_eq_nullCharacter_iff (d := d)]
  rw [read] at h
  cases hr : d.resolve path with
  | error f =>
    rw [hr] at h
    cases h
    simp
  | ok parts =>
    rw [hr] at h
    dsimp only at h
    split at h
    · cases h
      simp
    · cases h
      simp
    · split at h
      · cases h
        simp
      · cases h

/-! ## Sources -/

/-- The file is a text that is assembled to an image. -/
def Assembles (d : Directory) (source : List Char) (image : Image) : Prop :=
  ∃ text, d.read source = .ok (Text.Utf8.encode text) ∧
    Assembly.assemble (Text.unifyNewlines text) 0x200 = .ok image

/-- The file cannot be read, or it is a text that cannot be assembled. -/
inductive Unusable (d : Directory) (source : List Char) : SourceError → Prop
  | unreadable {e : PathError} : d.read source = .error e → '\x00' ∉ source →
    Unusable d source (.path e)
  | faulty {text : List Char} {e : Assembly.Error} : d.read source = .ok (Text.Utf8.encode text) →
    Assembly.assemble (Text.unifyNewlines text) 0x200 = .error e → Unusable d source (.assembly e)

/-- The file is no text, or its path cannot be handed to the system at all. -/
inductive Unfit (d : Directory) (source : List Char) : SourceError → Prop
  | path {e : PathError} : d.read source = .error e → '\x00' ∈ source → Unfit d source (.path e)
  | encoding {bytes : Image} {e : Text.Utf8Error} : d.read source = .ok bytes →
    (∀ text, bytes ≠ Text.Utf8.encode text) → Unfit d source (.encoding e)

/-- The text of a file, or why there is none. -/
theorem readText_cases (d : Directory) (source : List Char) :
    (∃ text, d.read source = .ok (Text.Utf8.encode text) ∧
      d.readText source = .ok (Text.unifyNewlines text)) ∨
    (∃ e, d.read source = .error e ∧ d.readText source = .error (.path e)) ∨
    ∃ bytes e, d.read source = .ok bytes ∧ (∀ text, bytes ≠ Text.Utf8.encode text) ∧
      d.readText source = .error (.encoding e) := by
  rw [readText]
  cases d.read source with
  | error e => exact .inr (.inl ⟨e, rfl, rfl⟩)
  | ok bytes =>
    dsimp only
    cases hdecode : Text.Utf8.decode bytes with
    | error e =>
      exact .inr (.inr ⟨bytes, e, rfl, Text.Utf8.exists_decode_eq_error_iff.1 ⟨e, hdecode⟩, rfl⟩)
    | ok text =>
      rw [Text.Utf8.decode_eq_ok_iff.1 hdecode]
      exact .inl ⟨text, rfl, rfl⟩

end Directory

end ChipEight
