/-
Labels in the places where instructions take an address.

Jumps, calls, the index register and the calls of the host take an address, which may be the name of
a label.  There the label stands for its address, unless it is called like a register or a special
operand: then the line has a form that no instruction has, although the label was accepted where it
was defined.

Main definition: `AddressPlace`, the places, with the line and the instruction of each.

Main statements:
* `AddressPlace.instruction_line`: a label that has no reserved name stands for its address;
* `AddressPlace.instruction_line_of_isReserved`: a label with a reserved name is no address;
* `label_at_place`: what becomes of a program with such a line.
-/
import ChipEight.Proofs.Assembly.Names
import ChipEight.Proofs.Assembly.Trail
import ChipEight.Proofs.Reassembly

namespace ChipEight.Assembly

/-! ## Places -/

/-- The places where an instruction takes an address. -/
inductive AddressPlace
  /-- The target of a jump. -/
  | jump
  /-- The target of a call. -/
  | call
  /-- The value of the index register. -/
  | index
  /-- The target of a call of the host. -/
  | system
  /-- The target of a jump with offset. -/
  | offset
  deriving DecidableEq, Repr

namespace AddressPlace

/-- The opcode of the instruction. -/
def opcode : AddressPlace → Opcode
  | jump => .jp
  | call => .call
  | index => .ldIndex
  | system => .sys
  | offset => .jpOffset

/-- The operands before the address. -/
def operands : AddressPlace → List (List Char)
  | index => [['i']]
  | offset => [['v', '0']]
  | _ => []

/-- The line with a name in the place. -/
def line (place : AddressPlace) (name : List Char) : List Char :=
  Text.phrase place.opcode.form.mnemonic (place.operands ++ [name])

example : jump.line "main".toList = "jp main".toList := by decide

example : offset.line "main".toList = "jp v0, main".toList := by decide

/-- The operands of the instruction with an address in the place.  The register of a jump with
offset is the high digit of its address. -/
def args (a : Int) : AddressPlace → List Int
  | offset => [a / 256, a]
  | _ => [a]

/-- The instruction with an address in the place. -/
def instruction (place : AddressPlace) (a : Int) : Instruction :=
  ⟨place.opcode, place.args a⟩

variable {place : AddressPlace} {name : List Char} {labels : Labels} {a : Int}

theorem plainWord_mnemonic (place : AddressPlace) :
    Text.PlainWord place.opcode.form.mnemonic := by
  cases place <;> decide

theorem lower_mnemonic (place : AddressPlace) :
    Text.lower place.opcode.form.mnemonic = place.opcode.form.mnemonic := by
  cases place <;> decide

theorem plainWord_operands (h : isLabelName name) :
    ∀ w ∈ place.operands ++ [name], Text.PlainWord w := by
  have hoperands : ∀ w ∈ place.operands, Text.PlainWord w := by
    cases place <;> decide
  exact List.forall_mem_append.2
    ⟨hoperands, List.forall_mem_singleton.2 (plainWord_of_isLabelName h)⟩

/-- The line is read by its mnemonic and its operands. -/
theorem cut_line (place : AddressPlace) (h : isLabelName name) :
    Text.lower (Text.firstWord (place.line name)).1 = place.opcode.form.mnemonic ∧
      (Text.items (Text.firstWord (place.line name)).2).map Operand.ofText =
        place.operands.map Operand.ofText ++ [Operand.ofText name] := by
  obtain ⟨hhead, hitems⟩ := Text.cut_phrase place.plainWord_mnemonic (plainWord_operands h)
  rw [line, hhead, hitems, lower_mnemonic, List.map_append, List.map_singleton]
  exact ⟨rfl, rfl⟩

/-- The fields of the instruction can hold an address. -/
theorem suited_instruction (h0 : 0 ≤ a) (h1 : a ≤ 0xFFF) : (place.instruction a).Suited := by
  have hnnn : Field.nnn.admits a := Field.admits_iff.2 ⟨h0, Int.lt_add_one_of_le h1⟩
  have hx : Field.x.admits (a / 256) := by
    have hdigit : a / 256 < 16 := by omega
    exact Field.admits_iff.2 ⟨by omega, hdigit⟩
  have haddress : ∀ p ∈ [(Field.nnn, a)], p.1.admits p.2 := List.forall_mem_singleton.2 hnnn
  cases place with
  | offset => exact ⟨rfl, List.forall_mem_cons.2 ⟨hx, haddress⟩, fun _ => rfl⟩
  | _ => exact ⟨rfl, haddress, fun ho => by cases ho⟩

/-- The numbers that are written in the line. -/
def numbers (a : Int) : AddressPlace → List Int
  | offset => [0, a]
  | _ => [a]

theorem numbers_operands (hlookup : labels.lookup name = some a) :
    Assembly.numbers labels (place.operands.map Operand.ofText ++ [.value name]) =
      .ok (place.numbers a) := by
  have hvalue : Assembly.numbers labels [.value name] = .ok [a] := by
    rw [Assembly.numbers, Operand.number?, value, hlookup]
    rfl
  cases place with
  | index =>
    change Assembly.numbers labels [.keyword .index, .value name] = _
    rw [Assembly.numbers, hvalue]
    rfl
  | offset =>
    change Assembly.numbers labels [.register 0, .value name] = _
    rw [Assembly.numbers, hvalue]
    rfl
  | _ => exact hvalue

theorem build_numbers (h0 : 0 ≤ a) (h1 : a ≤ 0xFFF) :
    build place.opcode (place.numbers a) = .ok (place.instruction a) := by
  have harguments : arguments place.opcode (place.numbers a) = .ok (place.args a) := by
    cases place with
    | offset =>
      have hdigit : a / 256 % 16 = a / 256 := by omega
      rw [opcode, numbers, arguments, if_pos (.inl rfl), hdigit]
      rfl
    | _ => rfl
  have hsuited : (place.instruction a).Suited := suited_instruction h0 h1
  have hencode := Instruction.encode_eq_ok_iff.2 ⟨hsuited, rfl⟩
  rw [instruction] at hencode
  rw [build, harguments]
  dsimp only
  rw [hencode]
  rfl

/-- A label that has no reserved name stands for its address. -/
theorem instruction_line (h : isLabelName name) (hr : isReserved name = false)
    (hlookup : labels.lookup name = some a) (h0 : 0 ≤ a) (h1 : a ≤ 0xFFF) :
    Assembly.instruction labels (place.line name) = .ok (place.instruction a) := by
  have hopcode : opcode? place.opcode.form.mnemonic
      (place.operands.map Operand.ofText ++ [.value name]) = some place.opcode := by
    cases place <;> rfl
  obtain ⟨hlower, hoperands⟩ := place.cut_line h
  rw [Operand.ofText_of_isLabelName h hr] at hoperands
  rw [Assembly.instruction]
  dsimp only
  rw [hlower, hoperands, hopcode]
  dsimp only
  rw [numbers_operands hlookup]
  exact build_numbers h0 h1

/-- A label with a reserved name is no address: no instruction is written so. -/
theorem instruction_line_of_isReserved (h : isLabelName name) (hr : isReserved name) :
    Assembly.instruction labels (place.line name) = .error (.unknownForm (place.line name)) := by
  have hvalue := Operand.isValue_of_isReserved hr
  have hnone : opcode? place.opcode.form.mnemonic
      (place.operands.map Operand.ofText ++ [Operand.ofText name]) = none := by
    cases ho : Operand.ofText name with
    | value token =>
      rw [ho] at hvalue
      cases hvalue
    | register x => cases place <;> rfl
    | keyword k => cases place <;> cases k <;> rfl
  obtain ⟨hlower, hoperands⟩ := place.cut_line h
  rw [Assembly.instruction]
  dsimp only
  rw [hlower, hoperands, hnone]

/-! ## Lines -/

/-- The line is an instruction, without a label or a comment. -/
theorem peelLabels_line (place : AddressPlace) (h : isLabelName name) :
    peelLabels (withoutComment (place.line name)) = ([], place.line name) :=
  peelLabels_phrase place.plainWord_mnemonic (plainWord_operands h)

theorem line_ne_nil (place : AddressPlace) (h : isLabelName name) : place.line name ≠ [] :=
  phrase_ne_nil place.plainWord_mnemonic (plainWord_operands h)

theorem ofText_line (place : AddressPlace) (name : List Char) :
    Statement.ofText (place.line name) = .instruction (place.line name) := by
  cases place with
  | jump => exact ofText_of_ne_dot (by decide)
  | call => exact ofText_of_ne_dot (by decide)
  | index => exact ofText_of_ne_dot (by decide)
  | system => exact ofText_of_ne_dot (by decide)
  | offset => exact ofText_of_ne_dot (by decide)

theorem text_of_standsIn {p : Placed} {n : Nat} (h : isLabelName name)
    (hp : p.StandsIn n (place.line name)) : p.text = place.line name := by
  rw [hp.text_eq, place.peelLabels_line h]

theorem emit_of_standsIn {p : Placed} {n : Nat} (h : isLabelName name)
    (hp : p.StandsIn n (place.line name)) (labels : Labels) (address : Int) :
    p.statement.emit labels address =
      (Statement.instruction (place.line name)).emit labels address := by
  rw [hp.statement_eq, text_of_standsIn h hp, ofText_line]

/-- There is nothing wrong with the line if the label has no reserved name. -/
theorem fault?_of_standsIn {p : Placed} {n : Nat} (h : isLabelName name)
    (hr : isReserved name = false) (hlookup : labels.lookup name = some a) (h0 : 0 ≤ a)
    (h1 : a ≤ 0xFFF) (hp : p.StandsIn n (place.line name)) : p.fault? labels = none := by
  have hread : Assembly.instruction labels (place.line name) = .ok (place.instruction a) :=
    instruction_line h hr hlookup h0 h1
  obtain ⟨word, hw⟩ := encode_of_instruction hread
  rw [Placed.fault?, Placed.emit, emit_of_standsIn h hp, Statement.emit, hread]
  dsimp only
  rw [hw]

theorem fault?_of_standsIn_of_isReserved {p : Placed} {n : Nat} (h : isLabelName name)
    (hr : isReserved name) (hp : p.StandsIn n (place.line name)) :
    p.fault? labels = some ⟨n, .unknownForm (place.line name)⟩ := by
  rw [Placed.fault?, Placed.emit, emit_of_standsIn h hp, Statement.emit,
    instruction_line_of_isReserved h hr, hp.line_eq]

end AddressPlace

/-! ## Programs -/

section Program

variable {source name : List Char} {base a : Int} {l : Layout} {place : AddressPlace}
  {before after : List (List Char)}

theorem isLabelName_of_lookup (h : Layout.ofSource source base = .ok l)
    (hlookup : l.labels.lookup name = some a) : isLabelName name := by
  obtain ⟨raw, -, hraw⟩ := Layout.exists_line_of_lookup h hlookup
  exact isLabelName_of_mem_peelLabels hraw

/-- Let a line of a program have the name of a label where an instruction takes an address, let the
label have an address that fits there, and let all other lines be such that they can be assembled.
If the label is not called like a register or a special operand, the program is assembled, and the
piece of the line is the word of the instruction with the address of the label.  Otherwise the line
is refused. -/
theorem label_at_place (hl : Layout.ofSource source base = .ok l)
    (hlookup : l.labels.lookup name = some a) (h0 : 0 ≤ a) (h1 : a ≤ 0xFFF)
    (hline : source.splitOn '\n' = before ++ place.line name :: after)
    (hothers : ∀ p ∈ l.placed, p.line ≠ before.length + 1 → p.fault? l.labels = none) :
    if isReserved name then
      assemble source base =
        .error ⟨(before.length + 1 : Nat), .unknownForm (place.line name)⟩
    else
      instruction l.labels (place.line name) = .ok (place.instruction a) ∧
        assemble source base = .ok (emission source base).bytes ∧
        ∃ word piece, (place.instruction a).encode = .ok word ∧
          (emission source base).pieces[before.countP hasStatement]? = some piece ∧
          piece.text = place.line name ∧ piece.bytes = wordBytes word := by
  have hname := isLabelName_of_lookup hl hlookup
  have hpeel := place.peelLabels_line hname
  have htext : (peelLabels (withoutComment (place.line name))).2 ≠ [] := by
    rw [hpeel]
    exact place.line_ne_nil hname
  have hemission : emission source base = l.output l.labels base := by
    rw [emission, hl]
    rfl
  split
  · rename_i hr
    have hfault := fault_of_line hl hline htext hothers fun p hp =>
      AddressPlace.fault?_of_standsIn_of_isReserved hname hr hp
    rw [Layout.assemble_of_ofSource hl, Emission.image, hfault]
  · rename_i hr
    rw [Bool.not_eq_true] at hr
    have hfault := fault_of_line hl hline htext hothers fun p hp =>
      AddressPlace.fault?_of_standsIn hname hr hlookup h0 h1 hp
    have hread : instruction l.labels (place.line name) = .ok (place.instruction a) :=
      AddressPlace.instruction_line hname hr hlookup h0 h1
    refine ⟨hread, ?_, ?_⟩
    · rw [Layout.assemble_of_ofSource hl, Emission.image, hfault, hemission]
    · obtain ⟨here, -, -, names, text, hpeel', -, hpiece⟩ := Layout.agrees_at_line hl hfault hline
      rw [hpeel] at hpeel'
      cases hpeel'
      obtain ⟨d, piece, -, hat, -, htext', hcontributes⟩ := hpiece (place.line_ne_nil hname)
      rw [AddressPlace.ofText_line] at hcontributes
      rw [hemission]
      generalize hbytes : piece.bytes = bytes at hcontributes
      cases hcontributes with
      | @instruction text i word high low read encoded made =>
        rw [hread] at read
        cases read
        exact ⟨word, piece, encoded, hat, htext', hbytes.trans (wordBytes_eq_iff.2 made).symm⟩

end Program

/-- A jump with offset to a label behind it. -/
theorem label_at_place_of_jump :
    ∃ l, Layout.ofSource "jp v0, go\ngo: cls".toList 0x200 = .ok l ∧
      instruction l.labels "jp v0, go".toList = .ok ⟨.jpOffset, [2, 0x202]⟩ ∧
      assemble "jp v0, go\ngo: cls".toList 0x200 = .ok [0xB2, 0x02, 0x00, 0xE0] := by
  have hl : Layout.ofSource "jp v0, go\ngo: cls".toList 0x200 =
      .ok ⟨0x204, [("go".toList, 0x202)], [⟨2, "cls".toList, .instruction "cls".toList, 0x202⟩,
        ⟨1, "jp v0, go".toList, .instruction "jp v0, go".toList, 0x200⟩]⟩ := by decide +kernel
  have hlookup : List.lookup "go".toList [("go".toList, (0x202 : Int))] = some 0x202 := by decide
  have hline : "jp v0, go\ngo: cls".toList.splitOn '\n' =
      [] ++ AddressPlace.offset.line "go".toList :: ["go: cls".toList] := rfl
  have hcls : Placed.fault? [("go".toList, 0x202)]
      ⟨2, "cls".toList, .instruction "cls".toList, 0x202⟩ = none := rfl
  have hgo := label_at_place hl hlookup (by decide) (by decide) hline <| by
    intro p hp hne
    rcases List.mem_cons.1 hp with rfl | hp
    · exact hcls
    · rw [List.mem_singleton.1 hp] at hne
      exact absurd rfl hne
  rw [if_neg (by decide)] at hgo
  obtain ⟨hread, himage, -⟩ := hgo
  exact ⟨_, hl, hread, himage.trans (by decide +kernel)⟩

/-- A label may be called like the delay timer, and data may refer to it, but no jump. -/
theorem reserved_label_refused :
    (∃ l, Layout.ofSource "dt:\njp dt".toList 0x200 = .ok l ∧
      l.labels.lookup "dt".toList = some 0x200) ∧
    assemble "dt:\n.dw dt".toList 0x200 = .ok [0x02, 0x00] ∧
    assemble "dt:\njp dt".toList 0x200 = .error ⟨2, .unknownForm "jp dt".toList⟩ := by
  have hl : Layout.ofSource "dt:\njp dt".toList 0x200 =
      .ok ⟨0x202, [("dt".toList, 0x200)],
        [⟨2, "jp dt".toList, .instruction "jp dt".toList, 0x200⟩]⟩ := by decide +kernel
  refine ⟨⟨_, hl, by decide⟩, ?_, ?_⟩
  · decide +kernel
  · decide +kernel

end ChipEight.Assembly
