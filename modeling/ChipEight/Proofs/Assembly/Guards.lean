/-
An assembler with guards, which stops where a step cannot be taken.

Some steps of the assembler make sense only if something holds: that a statement has a first word,
that a jump with offset has two numbers, that every byte field has its number, that an opcode gets
an operand for each field, that an instruction has a word, and that an origin does not lie behind.
The assembler goes on where this fails.  The assembler with guards checks it before the step, and
stops.  The guards are never needed, because the form of an opcode tells how many numbers there are,
and because both passes agree on the addresses.

Main definitions:
* `Breach`: what a guard reports;
* `Guarded.assemble`: the assembler with guards.

Main statements:
* `Guarded.instruction_eq`, `Guarded.emit_eq`, `Guarded.assemble_eq`: no guard stops an instruction,
  the second pass, or the assembler;
* `guards_never_stop`: so it is, and the faults name lines that are not blank.
-/
import ChipEight.Proofs.Assembly.Operands
import ChipEight.Proofs.Assembly.Trail

namespace ChipEight.Assembly

/-! ## Guards -/

/-- What a guard reports. -/
inductive Breach
  /-- A statement has no first word. -/
  | noWord
  /-- A jump with offset has another number of numbers than two. -/
  | noPair (given : Nat)
  /-- There is no number for a byte field. -/
  | noByte
  /-- An instruction is put together with another number of operands than its opcode has. -/
  | operandCount (opcode : Opcode) (given : Nat)
  /-- An instruction that was assembled has no word. -/
  | noEncoding (error : Instruction.EncodeError)
  /-- An origin lies behind the address that is reached. -/
  | behind (target address : Int)
  deriving DecidableEq, Repr

/-- Why the assembler with guards stops. -/
inductive Stop (ε : Type)
  /-- There is something wrong with the text. -/
  | fault (error : ε)
  /-- A step cannot be taken. -/
  | breach (breach : Breach)
  deriving DecidableEq, Repr

/-- The reason with the number of the line. -/
def Stop.atLine (line : Nat) : Stop Cause → Stop Error
  | fault cause => .fault ⟨line, cause⟩
  | breach b => .breach b

namespace Guarded

/-- The first word of a text and what follows it. -/
def firstWord (text : List Char) : Except (Stop Cause) (List Char × List Char) :=
  match Text.trimStart text with
  | [] => .error (.breach .noWord)
  | _ :: _ => .ok (Text.firstWord text)

/-- The numbers, where small negative numbers in byte fields wrap. -/
def wrapBytes : List Field → List Int → Except (Stop Cause) (List Int)
  | [], ns => .ok ns
  | f :: fs, [] => if f = .kk then .error (.breach .noByte) else wrapBytes fs []
  | f :: fs, n :: ns =>
    match wrapBytes fs ns with
    | .error s => .error s
    | .ok ns => .ok (wrapByte f n :: ns)

/-- The operands that the opcode takes from the numbers that are written. -/
def arguments (o : Opcode) (numbers : List Int) : Except (Stop Cause) (List Int) :=
  match o, numbers with
  | .shr, [x] => .ok [x, x]
  | .shl, [x] => .ok [x, x]
  | .jpOffset, [x, address] =>
    let digit := address / 256 % 16
    if x = 0 ∨ x = digit then .ok [digit, address]
    else .error (.fault (.offsetRegister x address))
  | .jpOffset, ns => .error (.breach (.noPair ns.length))
  | o, ns => wrapBytes o.fields ns

/-- The instruction of the opcode with the numbers that are written, if it can be encoded. -/
def build (o : Opcode) (numbers : List Int) : Except (Stop Cause) Instruction :=
  match arguments o numbers with
  | .error s => .error s
  | .ok args =>
    if args.length ≠ o.fields.length then .error (.breach (.operandCount o args.length))
    else
      match (Instruction.mk o args).encode with
      | .ok _ => .ok ⟨o, args⟩
      | .error e => .error (.fault (.encoding e))

/-- The instruction that is written in a text. -/
def instruction (labels : Labels) (text : List Char) : Except (Stop Cause) Instruction :=
  match firstWord text with
  | .error s => .error s
  | .ok (word, rest) =>
    let operands := (Text.items rest).map Operand.ofText
    match opcode? (Text.lower word) operands with
    | none => .error (.fault (.unknownForm text))
    | some o =>
      match numbers labels operands with
      | .error e => .error (.fault e)
      | .ok ns => build o ns

/-- The bytes of a statement at an address. -/
def statement (labels : Labels) (address : Int) : Statement → Except (Stop Cause) Image
  | .origin target =>
    match value labels target with
    | .error e => .error (.fault e)
    | .ok a =>
      if a < address then .error (.breach (.behind a address))
      else .ok (List.replicate (a - address).toNat 0)
  | .instruction text =>
    match instruction labels text with
    | .error s => .error s
    | .ok i =>
      match i.encode with
      | .error e => .error (.breach (.noEncoding e))
      | .ok word => .ok (wordBytes word)
  | s => (s.emit labels address).mapError .fault

/-- The image of statements from an address on. -/
def emit (labels : Labels) (address : Int) : List Placed → Except (Stop Error) Image
  | [] => .ok []
  | p :: ps =>
    match statement labels address p.statement with
    | .error s => .error (s.atLine p.line)
    | .ok bytes =>
      match emit labels (address + bytes.length) ps with
      | .error s => .error s
      | .ok rest => .ok (bytes ++ rest)

/-- The image of a source text that begins at an address. -/
def assemble (source : List Char) (base : Int) : Except (Stop Error) Image :=
  match Layout.ofSource source base with
  | .error e => .error (.fault e)
  | .ok l => emit l.labels base l.placed.reverse

end Guarded

/-! ## First words -/

/-- An instruction has a first word. -/
def Statement.HasWord (s : Statement) : Prop :=
  ∀ text, s = .instruction text → Text.trimStart text ≠ []

theorem trimStart_trim_ne_nil {s : List Char} (h : Text.trim s ≠ []) :
    Text.trimStart (Text.trim s) ≠ [] := by
  rw [Text.trim] at h ⊢
  cases hs : Text.trimStart s with
  | nil =>
    rw [hs] at h
    exact absurd rfl h
  | cons c t =>
    have hc : Text.isBlank c = false := by
      have hhead := List.head?_dropWhile_not Text.isBlank s
      rw [← Text.trimStart, hs] at hhead
      exact hhead
    obtain ⟨u, hu⟩ := Literal.exists_reverse_dropWhile_reverse hc t
    rw [Text.trimEnd, hu, Text.trimStart_cons hc]
    exact List.cons_ne_nil c u

/-- What is left of a line is trimmed. -/
theorem exists_peelLabels_eq_trim {line s : List Char} (h : line = Text.trim s) :
    ∃ t, (peelLabels line).2 = Text.trim t := by
  fun_induction peelLabels line generalizing s with
  | case1 line hs => exact ⟨s, h⟩
  | case2 line first rest hs names rest' hrest ih =>
    obtain ⟨-, after, -, hafter⟩ := splitLabel?_eq_some_iff.1 hs
    rw [hrest] at ih
    exact ih hafter

theorem Placed.StandsIn.hasWord {p : Placed} {line : Nat} {raw : List Char}
    (h : p.StandsIn line raw) : p.statement.HasWord := by
  intro text htext
  have hsame : text = p.text := by
    rw [h.statement_eq, Statement.ofText] at htext
    split at htext
    · cases htext
    · split at htext
      · cases htext
      · split at htext
        · cases htext
        · cases htext
          rfl
  have htrim : withoutComment raw = Text.trim (raw.takeWhile (· ≠ ';')) := rfl
  obtain ⟨t, ht⟩ := exists_peelLabels_eq_trim htrim
  have hne := h.text_ne_nil
  rw [hsame]
  rw [h.text_eq, ht] at hne ⊢
  exact trimStart_trim_ne_nil hne

theorem Layout.hasWord_of_ofSource {source : List Char} {base : Int} {l : Layout}
    (h : ofSource source base = .ok l) : ∀ p ∈ l.placed.reverse, p.statement.HasWord := by
  intro p hp
  obtain ⟨index, raw, -, hstands⟩ := exists_line_of_mem_placed h (List.mem_reverse.1 hp)
  exact hstands.hasWord

/-! ## No guard stops -/

namespace Guarded

theorem wrapBytes_eq {fs : List Field} {ns : List Int} (h : ns.length = fs.length) :
    wrapBytes fs ns = .ok (List.zipWith wrapByte fs ns) := by
  induction fs generalizing ns with
  | nil =>
    rw [List.eq_nil_of_length_eq_zero h]
    rfl
  | cons f fs ih =>
    cases ns with
    | nil => cases h
    | cons n ns =>
      rw [wrapBytes, ih (Nat.succ.inj h)]
      rfl

variable {o : Opcode} {ns : List Int} {labels : Labels} {text : List Char}

theorem arguments_eq_wrapBytes (ho : o ≠ .jpOffset) (h : ns.length = o.fields.length) :
    arguments o ns = wrapBytes o.fields ns := by
  rw [arguments.eq_def]
  split
  · cases h
  · cases h
  · exact absurd rfl ho
  · exact absurd rfl ho
  · rfl

/-- No guard stops the operands. -/
theorem arguments_eq (h : Counts o ns) :
    arguments o ns = (Assembly.arguments o ns).mapError .fault := by
  rcases h with hlength | ⟨hshift, hone⟩
  · by_cases ho : o = .jpOffset
    · subst ho
      obtain ⟨x, address, rfl⟩ := List.length_eq_two.1 hlength
      rw [arguments, Assembly.arguments]
      split <;> rfl
    · rw [arguments_eq_wrapBytes ho hlength, wrapBytes_eq hlength,
        Assembly.arguments_of_length ho hlength]
      rfl
  · obtain ⟨x, rfl⟩ := List.length_eq_one_iff.1 hone
    rcases hshift with rfl | rfl
    · rfl
    · rfl

/-- No guard stops an instruction that is put together. -/
theorem build_eq (h : Counts o ns) :
    build o ns = (Assembly.build o ns).mapError .fault := by
  rw [build, Assembly.build, arguments_eq h]
  cases hargs : Assembly.arguments o ns with
  | error e => rfl
  | ok args =>
    have hcount := length_arguments h hargs
    rw [Except.mapError]
    dsimp only
    rw [if_neg (by omega)]
    cases (Instruction.mk o args).encode with
    | error e => rfl
    | ok word => rfl

-- The guards do stop an opcode that lacks a number.
example : build .drw [0, 1] = .error (.breach (.operandCount .drw 2)) := by decide

/-- No guard stops an instruction that has a first word. -/
theorem instruction_eq (h : Text.trimStart text ≠ []) :
    instruction labels text = (Assembly.instruction labels text).mapError .fault := by
  obtain ⟨c, t, hstart⟩ := List.exists_cons_of_ne_nil h
  have hword : firstWord text = .ok (Text.firstWord text) := by
    rw [firstWord, hstart]
  rw [instruction, Assembly.instruction, hword]
  dsimp only
  cases ho : opcode? (Text.lower (Text.firstWord text).1)
      ((Text.items (Text.firstWord text).2).map Operand.ofText) with
  | none => rfl
  | some o =>
    dsimp only
    cases hns : numbers labels ((Text.items (Text.firstWord text).2).map Operand.ofText) with
    | error e => rfl
    | ok ns => exact build_eq (counts_of_opcode? ho hns)

/-! ### Statements -/

/-- No guard stops a statement that the first pass went over. -/
theorem statement_eq {late : Labels} {l : Layout} {s : Statement} {b : Int} (hn : late.Named)
    (he : late.Extends l.labels) (hb : l.addressAfter s = .ok b) (hs : s.HasWord) :
    statement late l.address s = (s.emit late l.address).mapError .fault := by
  cases s with
  | origin token =>
    rw [Layout.addressAfter] at hb
    cases hv : value l.labels token with
    | error e =>
      rw [hv] at hb
      cases hb
    | ok target =>
      simp only [hv] at hb
      split at hb
      · cases hb
      · -- The second pass reads the target that the first pass has checked.
        rw [statement, Statement.emit, value_of_extends hn he hv]
        dsimp only
        rw [if_neg ‹_›]
        rfl
  | bytes operands => rfl
  | words operands => rfl
  | instruction text =>
    rw [statement, Statement.emit, instruction_eq (hs text rfl)]
    cases hi : Assembly.instruction late text with
    | error e => rfl
    | ok i =>
      obtain ⟨word, hw⟩ := encode_of_instruction hi
      simp only [Except.mapError, hw]

/-- No guard stops the second pass on a trail. -/
theorem emit_eq {late : Labels} {a b : Int} {ps : List Placed} (hn : late.Named)
    (h : Trail late a ps b) (hs : ∀ p ∈ ps, p.statement.HasWord) :
    emit late a ps = (Assembly.emit late a ps).image.mapError .fault := by
  induction h with
  | nil a => rfl
  | @cons l p ps b c known noted goes _ ih =>
    rw [emit, statement_eq hn known goes (hs p List.mem_cons_self), Assembly.emit, Placed.emit]
    cases hp : p.statement.emit late l.address with
    | error e => rfl
    | ok bytes =>
      have hb := (contributes_of_emit hn known goes hp).2
      have hrest := ih fun q hq => hs q (List.mem_cons_of_mem _ hq)
      simp only [Except.mapError]
      rw [← hb, hrest, Emission.image, Emission.image]
      cases (Assembly.emit late b ps).fault with
      | some e => rfl
      | none => rfl

end Guarded

/-- The assembler with guards does what the assembler does. -/
theorem Guarded.assemble_eq (source : List Char) (base : Int) :
    Guarded.assemble source base = (Assembly.assemble source base).mapError .fault := by
  rw [Guarded.assemble]
  cases hl : Layout.ofSource source base with
  | error e =>
    rw [Assembly.assemble, emission, hl]
    rfl
  | ok l =>
    rw [Layout.assemble_of_ofSource hl]
    exact Guarded.emit_eq (Layout.named_of_ofSource hl) (Layout.trail_of_ofSource hl)
      (Layout.hasWord_of_ofSource hl)

/-- No guard stops the assembler: it gives an image, or it reports a fault, which names a line that
is not blank without its comment.  Whatever the labels are, no instruction is refused for the number
of its operands, and one that is read has an operand for each field, and a word. -/
theorem guards_never_stop (source : List Char) (base : Int) :
    Guarded.assemble source base = (assemble source base).mapError .fault ∧
      (∀ e, assemble source base = .error e →
        ∃ index raw, (source.splitOn '\n')[index]? = some raw ∧ e.line = (index + 1 : Nat) ∧
          withoutComment raw ≠ []) ∧
      ∀ labels text,
        (∀ o given, instruction labels text ≠ .error (.encoding (.arity o given))) ∧
          ∀ i, instruction labels text = .ok i →
            i.args.length = i.opcode.fields.length ∧ ∃ word, i.encode = .ok word := by
  refine ⟨Guarded.assemble_eq source base, fun e he => exists_line_of_assemble_eq_error he,
    fun labels text => ⟨?_, ?_⟩⟩
  · exact instruction_ne_arity labels text
  · intro i hi
    obtain ⟨word, hw⟩ := encode_of_instruction hi
    exact ⟨(Instruction.encode_eq_ok_iff.1 hw).1.length, word, hw⟩

end ChipEight.Assembly
