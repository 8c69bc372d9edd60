import Sicxe.Proofs.Assembly.Expression
import Sicxe.Proofs.Assembly.Module
import Sicxe.Proofs.Assembly.Statements
import Sicxe.Proofs.Instruction.Codec

/-!
# References that count from the base

A reference with the flag `b` holds the distance of its target from the base address in force. No
record covers the distance, and so it has to stay right when the program moves.

* `assemble_based`: the target of such a reference is an address of the program, and the distance
  stays under a move exactly if the operand of the `BASE` line is an address of the program too.
* `assemble_based_constant`: a `BASE` line may give a constant instead, and the distance from it is
  wrong in the moved program.
-/

namespace Sicxe

namespace Placement

variable {placement : Placement} {object : Object} {emitted : List EmittedLine}
variable {before after : List PlacedLine} {line : PlacedLine} {found : Operation} {extended : Bool}
variable {base : Option UInt32} {text : String}

/-- A memory reference takes the bytes that were reserved for it. -/
theorem spare_of_operand (given : line.operand = some text) : spare line found extended = 0 := by
  simp only [spare, given, reduceCtorEq, and_false, if_false]

/-- A reference with the flag `b` has its distance from the base address in force. -/
theorem ReferenceForm.based_of_flag {opcode : UInt8} {operand : MemoryOperand} {target : Value}
    {flags : Flags} {displacement : Nat} {record : Option Relocation}
    (form : ReferenceForm placement base line opcode operand text target extended
      (.relative opcode flags displacement) record) (isBased : flags.b = true) :
    target.external = none ∧ target.relative = 1 ∧ record = none ∧
      ∃ address, base = some address ∧ target.constant = address.toNat + displacement ∧
        displacement ≤ 4095 := by
  cases form with
  | imported => cases isBased
  | constant => cases isBased
  | based isLocal moves near => exact ⟨isLocal, moves, rfl, baseDistance?_eq_some near⟩
  | counted => cases isBased

/-- **The bytes of a memory reference are read back as its encoding**, which has one of the forms of
a reference. -/
theorem Assembled.decode_reference (assembled : placement.Assembled object emitted)
    (sized : line.Sized) (inTable : found ∈ Operation.table)
    (split : placement.lines = before ++ line :: after)
    (isOperation : line.command = .operation found extended) (isThree : found.format = .three)
    (given : line.operand = some text) :
    ∃ inForce operand target instruction record,
      before.foldlM placement.nextBase none = .ok inForce ∧
      MemoryOperand.parse text = .ok operand ∧
      placement.targetValue operand.target line.address = .ok target ∧
      ReferenceForm placement inForce line found.opcode operand text target extended instruction
        record ∧
      Instruction.decode (Bytes.slice object.code (placement.offset line) line.size) =
        .ok instruction ∧
      (record = none → ∀ other ∈ object.relocations, ∀ index, placement.offset line ≤ index →
        index < placement.offset line + line.size → ¬ other.Covers index) := by
  obtain ⟨_, _, encoded, inForce, rfl, reached, encodes⟩ := assembled.exists_split split
  obtain ⟨operand, target, instruction, parsed, evaluated, form, bytes⟩ :=
    encodeLine_reference isOperation isThree given encodes
  have size : line.size = encoded.bytes.length := by
    rw [length_encodeLine_operation sized isOperation encodes, spare_of_operand given, Nat.add_zero]
  have decoded := Instruction.decode_encode (form.wellFormed inTable isThree) []
  rw [List.append_nil, ← bytes, ← assembled.slice_at] at decoded
  refine ⟨inForce, operand, target, instruction, encoded.record, reached, parsed, evaluated, form,
    size ▸ decoded, fun free other member index behind upTo covers => ?_⟩
  cases free.symm.trans (assembled.line_free member behind upTo covers)

end Placement

/-- **A reference with the flag `b` is right in the moved program exactly if the operand of the
`BASE` line in force is an address of the program**, and not a constant. The reference holds the
distance of its target, an address of the program, from the value of that operand, and no record
covers it. -/
theorem assemble_based {source text : String} {placement : Placement} {object : Object}
    {before after : List PlacedLine} {line : PlacedLine} {found : Operation} {extended : Bool}
    {opcode : UInt8} {flags : Flags} {displacement : Nat}
    (assembled : assemble source = .ok (placement, object))
    (split : placement.lines = before ++ line :: after)
    (isOperation : line.command = .operation found extended) (isThree : found.format = .three)
    (given : line.operand = some text)
    (decoded : Instruction.decode (Bytes.slice object.code (placement.offset line) line.size) =
      .ok (.relative opcode flags displacement))
    (isBased : flags.b = true) :
    ∃ operand target base, MemoryOperand.parse text = .ok operand ∧
      placement.targetValue operand.target line.address = .ok target ∧
      target.external = none ∧ target.relative = 1 ∧
      placement.BaseValue before base ∧ base.isLocal = true ∧
      target.constant = (UInt32.ofInt base.constant).toNat + displacement ∧ displacement ≤ 4095 ∧
      (∀ record ∈ object.relocations, ∀ index, placement.offset line ≤ index →
        index < placement.offset line + line.size → ¬ record.Covers index) ∧
      ∀ distance, (target.moved distance).constant - (base.moved distance).constant =
          target.constant - base.constant ↔ distance = 0 ∨ base.relative = 1 := by
  obtain ⟨placed, emitted, made⟩ := assemble_assembled assembled
  have member : line ∈ placement.lines := split ▸ List.mem_append_right _ List.mem_cons_self
  obtain ⟨inForce, operand, target, instruction, record, reached, parsed, evaluated, form, read,
      free⟩ :=
    made.decode_reference (Placement.sized placed line member)
      (Placement.mem_table_of_operation placed member isOperation) split isOperation isThree given
  cases decoded.symm.trans read
  have sameOpcode : opcode = found.opcode := by
    cases form <;> rfl
  subst sameOpcode
  obtain ⟨isLocal, moves, unrecorded, address, rfl, distance, near⟩ := form.based_of_flag isBased
  obtain ⟨base, isBase, baseLocal, rfl⟩ := Placement.exists_baseValue reached
  refine ⟨operand, target, base, parsed, evaluated, isLocal, moves, isBase, baseLocal, distance,
    near, free unrecorded, fun distance => ?_⟩
  rw [Value.sub_moved_iff, moves]
  exact or_congr_right eq_comm

/-- A reference to the address in the base register stays right wherever the program is. -/
theorem assemble_based_address : ∃ placement object before line after target base,
    assemble "P START 16\n BASE X\n LDA X\nX WORD 1\n END" = .ok (placement, object) ∧
      placement.lines = before ++ line :: after ∧ line.operand = some "X" ∧
      Instruction.decode (Bytes.slice object.code (placement.offset line) line.size) =
        .ok (.relative 0x00 { n := true, i := true, b := true } 0) ∧
      placement.BaseValue before base ∧
      ∀ distance, (target : Value).relative = 1 ∧
        (target.moved distance).constant - (base.moved distance).constant = 0 := by
  obtain ⟨⟨placement, object⟩, assembled, same⟩ := exists_ok_of_map
    (show ((assemble "P START 16\n BASE X\n LDA X\nX WORD 1\n END").map fun result =>
        (result.1.lines, result.1.start, result.2.code,
          (result.1.eval "X" 16).toOption)).toOption =
      some ([⟨1, some "P", .directive .START, some "16", 16, 0⟩,
          ⟨2, none, .directive .BASE, some "X", 16, 0⟩,
          ⟨3, none, .operation ⟨.LDA, 0x00, .three, .memory, .load .A⟩ false, some "X", 16, 3⟩,
          ⟨4, some "X", .directive .WORD, some "1", 19, 3⟩,
          ⟨5, none, .directive .END, none, 22, 0⟩],
        16, #[3, 0x40, 0, 0, 0, 1], some ⟨19, 1, none⟩) by
      decide +kernel)
  simp only [Prod.mk.injEq] at same
  obtain ⟨lines, start, code, evaluated⟩ := same
  have evaluated := ok_of_toOption evaluated
  have split : placement.lines = [_, _] ++ _ :: [_, _] := lines
  have decoded : Instruction.decode (Bytes.slice object.code (placement.offset
      ⟨3, none, .operation ⟨.LDA, 0x00, .three, .memory, .load .A⟩ false, some "X", 16, 3⟩) 3) =
      .ok (.relative 0x00 { n := true, i := true, b := true } 0) := by
    rw [code, Placement.offset, start]
    exact ok_of_toOption (by decide +kernel)
  obtain ⟨operand, target, base, _, _, _, moves, isBase, _, distance, _, _, stays⟩ :=
    assemble_based assembled split rfl rfl rfl decoded rfl
  obtain ⟨baseLine, text, inForce, given, isValue⟩ := isBase
  cases inForce
  cases given
  cases isValue.symm.trans evaluated
  refine ⟨placement, object, _, _, _, target, _, assembled, split, rfl, decoded,
    ⟨_, _, rfl, rfl, evaluated⟩, fun other => ⟨moves, ?_⟩⟩
  rw [(stays other).mpr (Or.inr rfl), distance]
  rfl

/-- **A constant is taken as the base of a reference to an address of the program**, although the
distance from it changes when the program moves. -/
theorem assemble_based_constant : ∃ placement object before line after base,
    assemble "P START 16\n BASE 16\n LDA X\nX WORD 1\n END" = .ok (placement, object) ∧
      placement.lines = before ++ line :: after ∧ line.operand = some "X" ∧
      Instruction.decode (Bytes.slice object.code (placement.offset line) line.size) =
        .ok (.relative 0x00 { n := true, i := true, b := true } 3) ∧
      placement.eval "X" line.address = .ok ⟨19, 1, none⟩ ∧
      placement.BaseValue before base ∧ base.relative = 0 ∧
      (Value.moved 16 ⟨19, 1, none⟩).constant - (base.moved 16).constant ≠ 3 := by
  obtain ⟨⟨placement, object⟩, assembled, same⟩ := exists_ok_of_map
    (show ((assemble "P START 16\n BASE 16\n LDA X\nX WORD 1\n END").map fun result =>
        (result.1.lines, result.1.start, result.2.code,
          ((result.1.eval "X" 16).toOption, (result.1.eval "16" 16).toOption))).toOption =
      some ([⟨1, some "P", .directive .START, some "16", 16, 0⟩,
          ⟨2, none, .directive .BASE, some "16", 16, 0⟩,
          ⟨3, none, .operation ⟨.LDA, 0x00, .three, .memory, .load .A⟩ false, some "X", 16, 3⟩,
          ⟨4, some "X", .directive .WORD, some "1", 19, 3⟩,
          ⟨5, none, .directive .END, none, 22, 0⟩],
        16, #[3, 0x40, 3, 0, 0, 1], some ⟨19, 1, none⟩, some ⟨16, 0, none⟩) by
      decide +kernel)
  simp only [Prod.mk.injEq] at same
  obtain ⟨lines, start, code, target, base⟩ := same
  refine ⟨placement, object, [_, _], _, [_, _], _, assembled, lines, rfl, ?_,
    ok_of_toOption target, ⟨_, _, rfl, rfl, ok_of_toOption base⟩, rfl, by decide⟩
  rw [code, Placement.offset, start]
  exact ok_of_toOption (by decide +kernel)

end Sicxe
