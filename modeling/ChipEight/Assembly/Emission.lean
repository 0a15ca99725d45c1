/-
The bytes of a program, and its listing.

Every statement of a layout contributes a piece of the image: the bytes of an instruction or of
its operands, or the zeros up to a new origin.  The pieces before a fault are kept, since the
listing shows them.

Main statements:
* `Statement.emit_origin_eq_ok_iff` and so on: the bytes that a statement of each kind has;
* `assemble_eq_ok_iff`: an image is what the pieces of a text without fault make up.
-/
import ChipEight.Assembly.Layout
import ChipEight.Memory.Basic

namespace ChipEight.Assembly

/-- What a statement contributes to an image. -/
structure Piece where
  /-- Where the bytes stand. -/
  address : Int
  /-- The bytes. -/
  bytes : Image
  /-- The line without labels and comments. -/
  text : List Char
  /-- Whether the bytes are the zeros before a new origin. -/
  isPadding : Bool
  deriving DecidableEq, Repr

/-- The two bytes of a word, the high byte first. -/
def wordBytes (word : Int) : Image :=
  [UInt8.ofInt (word / 256), UInt8.ofInt word]

/-- The values of the operands of a statement. -/
def values (labels : Labels) : List (List Char) → Except Cause (List Int)
  | [] => .ok []
  | token :: rest =>
    match value labels token with
    | .error e => .error e
    | .ok v =>
      match values labels rest with
      | .error e => .error e
      | .ok vs => .ok (v :: vs)

/-- The bytes of a statement at an address. -/
def Statement.emit (labels : Labels) (address : Int) : Statement → Except Cause Image
  | .origin target =>
    match value labels target with
    | .error e => .error e
    | .ok a => .ok (List.replicate (a - address).toNat 0)
  | .bytes operands =>
    match values labels operands with
    | .error e => .error e
    | .ok vs => .ok (vs.map UInt8.ofInt)
  | .words operands =>
    match values labels operands with
    | .error e => .error e
    | .ok vs => .ok (vs.flatMap wordBytes)
  | .instruction text =>
    match Assembly.instruction labels text with
    | .error e => .error e
    | .ok i =>
      match i.encode with
      | .error e => .error (.encoding e)
      | .ok word => .ok (wordBytes word)

/-- Whether the statement asks for a new origin. -/
def Statement.isOrigin : Statement → Bool
  | .origin _ => true
  | _ => false

/-- The piece of a statement at an address. -/
def Placed.emit (labels : Labels) (address : Int) (p : Placed) : Except Error Piece :=
  match p.statement.emit labels address with
  | .error e => .error ⟨p.line, e⟩
  | .ok bytes => .ok ⟨address, bytes, p.text, p.statement.isOrigin⟩

/-- The pieces of a program up to its first fault. -/
structure Emission where
  /-- The pieces. -/
  pieces : List Piece
  /-- The fault, if there is one. -/
  fault : Option Error
  deriving DecidableEq, Repr

/-- The pieces of statements from an address on. -/
def emit (labels : Labels) (address : Int) : List Placed → Emission
  | [] => ⟨[], none⟩
  | p :: ps =>
    match p.emit labels address with
    | .error e => ⟨[], some e⟩
    | .ok piece =>
      let rest := emit labels (address + piece.bytes.length) ps
      ⟨piece :: rest.pieces, rest.fault⟩

/-- The pieces of a source text that begins at an address. -/
def emission (source : List Char) (base : Int) : Emission :=
  match Layout.ofSource source base with
  | .error e => ⟨[], some e⟩
  | .ok l => emit l.labels base l.placed.reverse

namespace Emission

/-- The bytes of the pieces. -/
def bytes (e : Emission) : Image :=
  e.pieces.flatMap Piece.bytes

/-- The image, if there is no fault. -/
def image (e : Emission) : Except Error Image :=
  match e.fault with
  | some error => .error error
  | none => .ok e.bytes

end Emission

/-- The image of a source text that begins at an address. -/
def assemble (source : List Char) (base : Int) : Except Error Image :=
  (emission source base).image

/-! ## Listing -/

/-- The bytes as a listing shows them: eight at most. -/
def shownBytes (bytes : Image) : List Char :=
  [' '].intercalate ((bytes.take 8).map fun b => Hex.capital 2 b.toNat) ++
    if 8 < bytes.length then [' ', '.', '.', '.'] else []

/-- The line of a listing for a piece. -/
def Piece.listing (p : Piece) : List Char :=
  let bytes := shownBytes p.bytes
  [' ', ' '] ++ Hex.capital 4 p.address ++ [' ', ' '] ++ bytes ++
    List.replicate (26 - bytes.length) ' ' ++ ' ' :: p.text

/-- The listing: a line for each piece that is not padding. -/
def Emission.listing (e : Emission) : List (List Char) :=
  (e.pieces.filter (!·.isPadding)).map Piece.listing

/-! ## What is emitted -/

section Emitted

variable {labels : Labels} {address : Int} {token text : List Char}
  {operands rest : List (List Char)} {vs : List Int} {bytes : Image}

theorem values_cons_eq_ok_iff :
    values labels (token :: rest) = .ok vs ↔
      ∃ v vs', value labels token = .ok v ∧ values labels rest = .ok vs' ∧ vs = v :: vs' := by
  rw [values]
  cases value labels token with
  | error e => simp
  | ok v => cases values labels rest <;> simp [eq_comm]

theorem Statement.emit_origin_eq_ok_iff :
    (Statement.origin token).emit labels address = .ok bytes ↔
      ∃ target, value labels token = .ok target ∧
        bytes = List.replicate (target - address).toNat 0 := by
  rw [emit]
  cases value labels token <;> simp [eq_comm]

theorem Statement.emit_bytes_eq_ok_iff :
    (Statement.bytes operands).emit labels address = .ok bytes ↔
      ∃ vs, values labels operands = .ok vs ∧ bytes = vs.map UInt8.ofInt := by
  rw [emit]
  cases values labels operands <;> simp [eq_comm]

theorem Statement.emit_words_eq_ok_iff :
    (Statement.words operands).emit labels address = .ok bytes ↔
      ∃ vs, values labels operands = .ok vs ∧ bytes = vs.flatMap wordBytes := by
  rw [emit]
  cases values labels operands <;> simp [eq_comm]

theorem Statement.emit_instruction_eq_ok_iff :
    (Statement.instruction text).emit labels address = .ok bytes ↔
      ∃ i word, Assembly.instruction labels text = .ok i ∧ i.encode = .ok word ∧
        bytes = wordBytes word := by
  rw [emit]
  cases Assembly.instruction labels text with
  | error e => simp
  | ok i => cases hw : i.encode <;> simp [hw, @eq_comm _ bytes]

end Emitted

theorem assemble_eq_ok_iff {source : List Char} {base : Int} {image : Image} :
    assemble source base = .ok image ↔
      (emission source base).fault = none ∧ (emission source base).bytes = image := by
  unfold assemble Emission.image
  cases (emission source base).fault <;> simp

end ChipEight.Assembly
