import Sicxe.Proofs.Assembly.FixedLine
import Sicxe.Proofs.Assembly.Relocations
import Sicxe.Proofs.Assembly.Size

/-!
# Decoding what was written

The processor sees an assembled program as bytes. `assemble_decoded` says that at the offset of an
operation it finds the instruction that was written, before and after any fix-ups of the module.

* `Instruction.Written`: the instructions that a line can spell.
* `Placement.encodeOperation_written`: a line is encoded as one of them, and its record covers
  nothing but the displacement or the address in it (`Instruction.FieldOf`).
* `Placement.Assembled.heldAt_applyAll`: no fix-up changes anything else in a line, the fields of
  the other lines being elsewhere.
-/

namespace Sicxe

/-! ### Half bytes -/

theorem Register.number_lt (register : Register) : register.number < 16 := by
  cases register <;> decide

namespace HalfBytes

theorem readRegister_lt {text : List Char} {number : Nat}
    (read : readRegister text = .ok number) : number < 16 := by
  unfold readRegister at read
  split at read
  · cases read
    exact Register.number_lt _
  · cases read

theorem readCount_le {text : List Char} {least greatest : Int} {count : Nat}
    (read : readCount text least greatest = .ok count) : (count : Int) ≤ max 0 greatest := by
  unfold readCount at read
  split at read
  · cases read
  · split at read
    · cases read
      omega
    · cases read

/-- **What an operand spells fits in two half bytes.** -/
theorem parse_lt {shape : OperandShape} {text : String} {halves : HalfBytes}
    (parsed : parse shape text = .ok halves) : halves.first < 16 ∧ halves.second < 16 := by
  cases shape with
  | register =>
    obtain ⟨register, first, same⟩ := bind_eq_ok_iff.mp parsed
    cases same
    exact ⟨readRegister_lt first, Nat.zero_lt_succ 15⟩
  | registerPair =>
    obtain ⟨_, _, parsed⟩ := bind_eq_ok_iff.mp parsed
    obtain ⟨_, first, parsed⟩ := bind_eq_ok_iff.mp parsed
    obtain ⟨_, second, same⟩ := bind_eq_ok_iff.mp parsed
    cases same
    exact ⟨readRegister_lt first, readRegister_lt second⟩
  | registerCount =>
    obtain ⟨_, _, parsed⟩ := bind_eq_ok_iff.mp parsed
    obtain ⟨_, first, parsed⟩ := bind_eq_ok_iff.mp parsed
    obtain ⟨count, second, same⟩ := bind_eq_ok_iff.mp parsed
    cases same
    have bound := readCount_le second
    exact ⟨readRegister_lt first, show count - 1 < 16 by omega⟩
  | count =>
    obtain ⟨count, first, same⟩ := bind_eq_ok_iff.mp parsed
    cases same
    have bound := readCount_le first
    exact ⟨show count < 16 by omega, Nat.zero_lt_succ 15⟩
  | none | memory => cases parsed

end HalfBytes

/-! ### What was written -/

/-- The flags say what a reference was written as. -/
structure Flags.Written (flags : Flags) (operand : MemoryOperand) (extended : Bool) : Prop where
  extended : flags.e = extended
  indexed : flags.x = operand.indexed
  notImmediate : flags.n = true ↔ operand.mode ≠ .immediate
  notIndirect : flags.i = true ↔ operand.mode ≠ .indirect
  marked : (flags.n || flags.i) = true
  relativeToOne : (flags.b && flags.p) = false

theorem Placement.written_operandFlags (operand : MemoryOperand) {b p : Bool}
    (single : (b && p) = false) (e : Bool) :
    ({ operandFlags operand with b, p, e } : Flags).Written operand e := by
  refine ⟨rfl, rfl, ?_, ?_, operandFlags_marked operand, single⟩
  · exact bne_iff_ne
  · exact bne_iff_ne

namespace Instruction

/-- The instruction is the one that an operation was written as. -/
inductive Written (line : PlacedLine) (found : Operation) (extended : Bool) : Instruction → Prop
  | plain (isOne : found.format = .one) : Written line found extended (.plain found.opcode)
  | registers {text : String} {halves : HalfBytes} (isTwo : found.format = .two)
      (given : line.operand = some text)
      (parsed : HalfBytes.parse found.operand text = .ok halves) :
      Written line found extended (.registers found.opcode halves.first halves.second)
  | simple (isReturn : found.mnemonic = .RSUB) (absent : line.operand = none) :
      Written line found extended (.simple found.opcode false 0)
  | relative {text : String} {operand : MemoryOperand} {flags : Flags} {displacement : Nat}
      (isThree : found.format = .three) (given : line.operand = some text)
      (parsed : MemoryOperand.parse text = .ok operand) (plain : extended = false)
      (written : flags.Written operand false) :
      Written line found extended (.relative found.opcode flags displacement)
  | extended {text : String} {operand : MemoryOperand} {flags : Flags} {address : Nat}
      (isThree : found.format = .three) (given : line.operand = some text)
      (parsed : MemoryOperand.parse text = .ok operand) (isExtended : extended = true)
      (written : flags.Written operand true) :
      Written line found extended (.extended found.opcode flags address)

/-- The record at `offset` covers the displacement or the address of an instruction. -/
inductive FieldOf (offset : Nat) : Instruction → Relocation → Prop
  | relative {opcode : UInt8} {flags : Flags} {displacement : Nat} (symbol : String) :
      FieldOf offset (.relative opcode flags displacement) (.displacement offset symbol)
  | extended {opcode : UInt8} {flags : Flags} {address : Nat} (symbol : String) :
      FieldOf offset (.extended opcode flags address) (.address20 offset symbol)

theorem Written.operation? {line : PlacedLine} {found : Operation} {extended : Bool}
    {instruction : Instruction} (written : instruction.Written line found extended)
    (inTable : found ∈ Operation.table) : instruction.operation? = some found := by
  have known := Operation.ofOpcode?_opcode found inTable
  cases written <;> exact known

end Instruction

namespace Placement

open Instruction (FieldOf)

variable {placement : Placement} {base : Option UInt32} {line : PlacedLine} {found : Operation}
variable {extended : Bool} {text : String} {instruction : Instruction}
variable {record : Option Relocation} {operand : MemoryOperand} {value : Value}

theorem ReferenceForm.written (isThree : found.format = .three) (given : line.operand = some text)
    (parsed : MemoryOperand.parse text = .ok operand)
    (form : ReferenceForm placement base line found.opcode operand text value extended instruction
      record) : instruction.Written line found extended := by
  cases form with
  | extended =>
    exact .extended isThree given parsed rfl (written_operandFlags operand rfl true)
  | imported | counted =>
    exact .relative isThree given parsed rfl (written_operandFlags operand (p := true) rfl false)
  | constant =>
    exact .relative isThree given parsed rfl (written_operandFlags operand (p := false) rfl false)
  | based =>
    exact .relative isThree given parsed rfl (written_operandFlags operand (b := true) rfl false)

/-- The record of a reference covers its displacement or its address. -/
theorem ReferenceForm.fieldOf {opcode : UInt8}
    (form : ReferenceForm placement base line opcode operand text value extended instruction
      record) : ∀ own, record = some own → FieldOf (placement.offset line) instruction own := by
  intro own isRecord
  cases form with
  | extended =>
    obtain ⟨symbol, _, rfl⟩ := Option.map_eq_some_iff.mp isRecord
    exact .extended symbol
  | imported =>
    cases isRecord
    exact .relative _
  | constant | based | counted => cases isRecord

/-- **An operation is encoded as the instruction that was written**, and a record covers nothing but
the address in it. -/
theorem encodeOperation_written (inTable : found ∈ Operation.table)
    (bare : line.operand = none → found.operand = .none)
    (succeeded : placement.encodeOperation base line found extended = .ok (instruction, record)) :
    instruction.Written line found extended ∧ instruction.WellFormed ∧
      ∀ own, record = some own → FieldOf (placement.offset line) instruction own := by
  unfold encodeOperation at succeeded
  split at succeeded
  · rename_i isOne
    cases succeeded
    exact ⟨.plain isOne, ⟨found, inTable, rfl, isOne⟩, fun _ isRecord => by cases isRecord⟩
  · rename_i isTwo
    obtain ⟨text, given, succeeded⟩ := bind_eq_ok_iff.mp succeeded
    obtain ⟨halves, parsed, same⟩ := bind_eq_ok_iff.mp succeeded
    cases same
    exact ⟨.registers isTwo (getOperand_eq_ok_iff.mp given) parsed,
      ⟨found, inTable, rfl, isTwo, HalfBytes.parse_lt parsed⟩, fun _ isRecord => by cases isRecord⟩
  · rename_i isThree
    split at succeeded
    · rename_i absent
      cases succeeded
      have isReturn := (Operation.mnemonic_eq_RSUB_iff found inTable).mpr ⟨isThree, bare absent⟩
      exact ⟨.simple isReturn absent, ⟨found, inTable, rfl, isThree, by decide⟩,
        fun _ isRecord => by cases isRecord⟩
    · rename_i given
      obtain ⟨operand, value, parsed, _, form⟩ := encodeReference_cases succeeded
      exact ⟨form.written isThree given parsed, form.wellFormed inTable isThree, form.fieldOf⟩

end Placement

/-! ### Under the fix-ups -/

/-- A field behind one byte takes a value, and the bits above it stay. -/
theorem Relocation.slice_put {record : Relocation} {code : Array UInt8} {lead : UInt8}
    {offset high field : Nat} (value : Nat) (behind : record.offset = offset + 1)
    (inside : record.inside code.size)
    (holds : Bytes.slice code offset (1 + record.length) =
      lead :: Bytes.ofNat record.length (high * record.capacity + field))
    (small : field < record.capacity)
    (room : high * record.capacity + record.capacity ≤ valueCount (8 * record.length)) :
    Bytes.slice (record.put code value) offset (1 + record.length) =
      lead :: Bytes.ofNat record.length (high * record.capacity + value) := by
  have inCode : offset + 1 + record.length ≤ code.size := behind ▸ inside.2.2
  rw [Bytes.slice_add, ← List.singleton_append] at holds
  obtain ⟨first, others⟩ := List.append_inj holds (Bytes.length_slice _ _ _ (by omega))
  have raw := Relocation.raw_of_slice (behind ▸ others) small room
  have written := Bytes.slice_write_self code record.offset
    (Bytes.ofNat record.length (high * record.capacity + value))
    (by rw [Bytes.length_ofNat]; exact inside.2.2)
  rw [Bytes.length_ofNat] at written
  have kept : Bytes.slice (record.put code value) offset 1 = Bytes.slice code offset 1 := by
    refine Bytes.slice_congr fun index bound => Relocation.getElem?_put inside fun covers => ?_
    have begins : record.offset ≤ offset + index := covers.1
    omega
  rw [Bytes.slice_add, kept, first, ← behind, Relocation.put, raw,
    (record.capacity_split high small).1, written]
  rfl

namespace Instruction

variable {instruction : Instruction} {code : Array UInt8} {offset : Nat}

/-- The instruction with another displacement or address, if it has addressing flags. -/
def withField : Instruction → Nat → Instruction
  | relative opcode flags _, field => relative opcode flags field
  | extended opcode flags _, field => extended opcode flags field
  | instruction, _ => instruction

theorem withField_keeps (instruction : Instruction) (field : Nat) :
    (instruction.withField field).opcode = instruction.opcode ∧
      (instruction.withField field).flags? = instruction.flags? ∧
      (instruction.withField field).length = instruction.length := by
  cases instruction <;> exact ⟨rfl, rfl, rfl⟩

theorem exists_withField (instruction : Instruction) :
    ∃ field, instruction.withField field = instruction := by
  cases instruction with
  | relative opcode flags displacement => exact ⟨displacement, rfl⟩
  | extended opcode flags address => exact ⟨address, rfl⟩
  | plain | registers | simple => exact ⟨0, rfl⟩

/-- The code holds an instruction, but for the displacement or address in it. -/
def HeldAt (instruction : Instruction) (code : Array UInt8) (offset : Nat) : Prop :=
  ∃ field, (instruction.withField field).WellFormed ∧
    Bytes.slice code offset instruction.length = (instruction.withField field).encode

/-- Where the code holds an instruction, it is found there. -/
theorem HeldAt.decode (held : instruction.HeldAt code offset) :
    ∃ field, decode (code.toList.drop offset) = .ok (instruction.withField field) := by
  obtain ⟨field, wellFormed, holds⟩ := held
  refine ⟨field, ?_⟩
  rw [Bytes.drop_eq_slice_append code offset instruction.length, holds]
  exact decode_encode wellFormed _

/-- **The record of an instruction changes nothing but its displacement or address.** -/
theorem HeldAt.put {record : Relocation} {value : Nat} (held : instruction.HeldAt code offset)
    (own : FieldOf offset instruction record) (inside : record.inside code.size)
    (small : value < record.capacity) : instruction.HeldAt (record.put code value) offset := by
  obtain ⟨field, ⟨operation, inTable, isOpcode, fields⟩, holds⟩ := held
  refine ⟨value, ?_⟩
  cases own with
  | @relative opcode flags displacement symbol =>
    obtain ⟨isThree, plain, marked, room⟩ := fields
    refine ⟨⟨operation, inTable, isOpcode, isThree, plain, marked, small⟩, ?_⟩
    have high := high_lt flags
    show Bytes.slice _ offset 3 = (relative opcode flags value).encode
    rw [encode_relative small]
    refine Relocation.slice_put value rfl inside (holds.trans (encode_relative room)) room ?_
    show flags.high * 0x1000 + 0x1000 ≤ 0x10000
    omega
  | @extended opcode flags address symbol =>
    obtain ⟨isThree, isExtended, marked, room⟩ := fields
    refine ⟨⟨operation, inTable, isOpcode, isThree, isExtended, marked, small⟩, ?_⟩
    have high := high_lt flags
    show Bytes.slice _ offset 4 = (extended opcode flags value).encode
    rw [encode_extended small]
    refine Relocation.slice_put value rfl inside (holds.trans (encode_extended room)) room ?_
    show flags.high * 0x100000 + 0x100000 ≤ 0x1000000
    omega

end Instruction

namespace Placement.Assembled

open Instruction (FieldOf)

variable {placement : Placement} {object : Object} {before after : List EmittedLine}
variable {line : EmittedLine} {instruction : Instruction} {code fixed : Array UInt8}

/-- **A fix-up of the module changes nothing in a line but the displacement or address that the
record of the line covers.** -/
theorem heldAt_apply (assembled : placement.Assembled object (before ++ line :: after))
    (fits : instruction.length ≤ line.placed.size)
    (own : ∀ record, line.encoded.record = some record →
      FieldOf (placement.offset line.placed) instruction record)
    {record : Relocation} {address origin : Nat} (member : record ∈ object.relocations)
    (held : instruction.HeldAt code (placement.offset line.placed))
    (applied : record.apply code address origin = .ok fixed) :
    instruction.HeldAt fixed (placement.offset line.placed) := by
  obtain ⟨inside, value, resolved, rfl⟩ := Relocation.apply_eq_ok_iff.mp applied
  by_cases isOwn : line.encoded.record = some record
  · exact held.put (own record isOwn) inside (Relocation.resolve_lt resolved)
  · obtain ⟨field, wellFormed, holds⟩ := held
    refine ⟨field, wellFormed, ?_⟩
    rw [← holds]
    refine Bytes.slice_congr fun index bound =>
      Relocation.getElem?_put inside fun covers => isOwn ?_
    exact assembled.line_free member (Nat.le_add_right _ _) (by omega) covers

/-- The same after any fix-ups of the module. -/
theorem heldAt_applyAll (assembled : placement.Assembled object (before ++ line :: after))
    (fits : instruction.length ≤ line.placed.size)
    (own : ∀ record, line.encoded.record = some record →
      FieldOf (placement.offset line.placed) instruction record)
    {fixups : List (Relocation × Nat × Nat)}
    (members : ∀ fixup ∈ fixups, fixup.1 ∈ object.relocations)
    (held : instruction.HeldAt code (placement.offset line.placed))
    (applied : Relocation.applyAll code fixups = .ok fixed) :
    instruction.HeldAt fixed (placement.offset line.placed) := by
  induction fixups generalizing code with
  | nil =>
    cases applied
    exact held
  | cons fixup rest ih =>
    obtain ⟨next, first, applied⟩ := foldlM_cons_eq_ok_iff.mp applied
    exact ih (fun other member => members other (List.mem_cons_of_mem _ member))
      (assembled.heldAt_apply fits own (members fixup List.mem_cons_self) held first) applied

end Placement.Assembled

/-- **At the offset of an operation the processor finds what was written**: an instruction of that
operation, with the flags of a memory reference as the line has them, the half bytes of two
registers as they are spelled, and a return in the simple form. After any fix-ups of the module that
succeed it still finds that instruction there, with the same opcode and flags, and at most another
displacement or address in it. -/
theorem assemble_decoded {source : String} {placement : Placement} {object : Object}
    {line : PlacedLine} {found : Operation} {extended : Bool}
    (assembled : assemble source = .ok (placement, object)) (member : line ∈ placement.lines)
    (isOperation : line.command = .operation found extended) :
    (∃ content, (content, line.line) ∈ (Text.stringLines source).zipIdx 1 ∧
        Statement.parse content = .ok (some ⟨line.label, line.command, line.operand⟩)) ∧
      ∃ instruction : Instruction,
        Instruction.decode (object.code.toList.drop (placement.offset line)) = .ok instruction ∧
        instruction.operation? = some found ∧ instruction.Written line found extended ∧
        ∀ fixups fixed, (∀ fixup ∈ fixups, fixup.1 ∈ object.relocations) →
          Relocation.applyAll object.code fixups = .ok fixed →
          ∃ moved : Instruction,
            Instruction.decode (fixed.toList.drop (placement.offset line)) = .ok moved ∧
            moved.opcode = instruction.opcode ∧ moved.flags? = instruction.flags? ∧
            ∃ field, moved = instruction.withField field := by
  obtain ⟨placed, emitted, made⟩ := assemble_assembled assembled
  have inTable := Placement.mem_table_of_operation placed member isOperation
  refine ⟨?_, ?_⟩
  · cases Placement.origin_of_mem placed member with
    | statement _ _ inSource parsed => exact ⟨_, inSource, parsed⟩
    | literal => cases isOperation
  · obtain ⟨linesBefore, linesAfter, split⟩ := List.append_of_mem member
    obtain ⟨before, after, encoded, inForce, rfl, _, encodes⟩ := made.exists_split split
    simp only [Placement.encodeLine, isOperation] at encodes
    obtain ⟨⟨instruction, record⟩, operation, same⟩ := bind_eq_ok_iff.mp encodes
    cases same
    obtain ⟨written, wellFormed, own⟩ := Placement.encodeOperation_written inTable
      (Placement.operand_eq_none_iff placed member isOperation).mp operation
    have bytes := made.slice_at
    have fits : instruction.encode.length ≤ line.size :=
      made.fits _ (List.mem_append_right _ List.mem_cons_self)
    dsimp only at bytes
    rw [Instruction.length_encode] at bytes fits
    refine ⟨instruction, ?_, written.operation? inTable, written, ?_⟩
    · rw [Bytes.drop_eq_slice_append object.code (placement.offset line) instruction.length, bytes]
      exact Instruction.decode_encode wellFormed _
    · intro fixups fixed members applied
      obtain ⟨field, itself⟩ := instruction.exists_withField
      have held : instruction.HeldAt object.code (placement.offset line) :=
        ⟨field, by rwa [itself], by rwa [itself]⟩
      obtain ⟨field, decoded⟩ := (made.heldAt_applyAll fits own members held applied).decode
      obtain ⟨opcode, flags, _⟩ := instruction.withField_keeps field
      exact ⟨_, decoded, opcode, flags, field, rfl⟩

/-- An extended and indexed reference to an import, before and after the import has its address. -/
theorem assemble_decoded_imported : ∃ placement object line found,
    assemble "A START 0\n EXTREF B\n +LDA B,X\n END" = .ok (placement, object) ∧
      line ∈ placement.lines ∧ line.command = .operation found true ∧ found.mnemonic = .LDA ∧
      (∃ instruction : Instruction,
        Instruction.decode (object.code.toList.drop (placement.offset line)) = .ok instruction ∧
        instruction.operation? = some found ∧ instruction.Written line found true) ∧
      ∃ fixed moved, Relocation.applyAll object.code [(.address20 0 "B", 0x1234, 0)] = .ok fixed ∧
        Instruction.decode (fixed.toList.drop (placement.offset line)) = .ok moved ∧
        moved.opcode = 0 ∧ moved.flags? = some ⟨true, true, true, false, false, true⟩ := by
  let line : PlacedLine :=
    ⟨3, none, .operation ⟨.LDA, 0x00, .three, .memory, .load .A⟩ true, some "B,X", 0, 4⟩
  obtain ⟨⟨placement, object⟩, assembled, same⟩ := exists_ok_of_map
    (show ((assemble "A START 0\n EXTREF B\n +LDA B,X\n END").map fun result =>
        (result.1.lines[2]?, result.2.relocations, result.2.code)).toOption =
      some (some line, [.address20 0 "B"], #[0x03, 0x90, 0x00, 0x00]) by
      decide +kernel)
  obtain ⟨isLine, records, code⟩ : placement.lines[2]? = some line ∧
      object.relocations = [.address20 0 "B"] ∧ object.code = #[0x03, 0x90, 0x00, 0x00] := by
    simpa using same
  have member : line ∈ placement.lines := List.mem_of_getElem? isLine
  have offset : placement.offset line = 0 := Nat.zero_sub placement.start
  have applied : Relocation.applyAll object.code [(.address20 0 "B", 0x1234, 0)] =
      .ok #[0x03, 0x90, 0x12, 0x34] := by
    rw [code]
    decide +kernel
  obtain ⟨_, instruction, decoded, isFound, written, afterwards⟩ :=
    assemble_decoded assembled member rfl
  obtain ⟨moved, movedDecoded, opcode, flags, _⟩ := afterwards _ _ (by simp [records]) applied
  have isInstruction : instruction = .extended 0 ⟨true, true, true, false, false, true⟩ 0 := by
    rw [offset, code] at decoded
    exact Except.ok.inj (decoded.symm.trans (by decide +kernel))
  rw [isInstruction] at opcode flags
  exact ⟨placement, object, line, _, assembled, member, rfl, rfl,
    ⟨instruction, decoded, isFound, written⟩, _, moved, applied, movedDecoded, opcode, flags⟩

end Sicxe
