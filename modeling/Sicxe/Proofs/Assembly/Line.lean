import Sicxe.Proofs.Assembly.Base
import Sicxe.Proofs.Assembly.Placing
import Sicxe.Proofs.Assembly.Reference
import Sicxe.Proofs.Object.Field

/-!
# The encoding of one line

* `Placement.length_encodeOperation`: an operation takes what was reserved for it, but for a byte
  that an extended reference without an operand has to spare.
* `Placement.length_encodeLine_le`: the bytes of a line fit in what was reserved for it.
* `Placement.encodeLine_origin`: a record of a line has one of three shapes, its field lies in the
  bytes of the line, and its symbol is that of a value on the line.
* `Placement.encodeLine_reference`, `Placement.encodeWord_cases`: what a memory reference and a word
  are encoded as.
-/

namespace Sicxe

/-- The shapes of the records of a line at `offset`, each with the number of bytes of the line. -/
inductive LineRecord (offset : Nat) : Relocation → Nat → Prop
  | address20 (symbol : String) : LineRecord offset (.address20 offset symbol) 4
  | displacement (symbol : String) : LineRecord offset (.displacement offset symbol) 3
  | word (symbol : String) : LineRecord offset (.word offset symbol) 3

namespace LineRecord

variable {offset length : Nat} {record : Relocation}

/-- The field of a record lies in the bytes of its line. -/
theorem field_inside (shape : LineRecord offset record length) :
    offset ≤ record.offset ∧ record.offset + record.length ≤ offset + length ∧
      1 ≤ record.length ∧ record.length ≤ 4 := by
  cases shape with
  | address20 symbol => simp only [Relocation.address20]; omega
  | displacement symbol => simp only [Relocation.displacement]; omega
  | word symbol => simp only [Relocation.word]; omega

theorem fits (shape : LineRecord offset record length) : record.Fits := by
  cases shape <;> exact Nat.le_of_ble_eq_true rfl

theorem hasInstruction (shape : LineRecord offset record length) : record.HasInstruction := by
  cases shape with
  | address20 symbol => exact fun impossible => by cases impossible
  | displacement symbol => exact fun _ => Nat.le_add_left 1 offset
  | word symbol => exact fun impossible => by cases impossible

/-- A displacement has 12 bits. -/
theorem capacity_of_relative (shape : LineRecord offset record length)
    (relative : record.relative = true) : record.halfBytes = 3 := by
  cases shape with
  | address20 symbol => cases relative
  | displacement symbol => rfl
  | word symbol => cases relative

end LineRecord

/-- Whether a command puts bytes into the code. -/
def Command.emits : Command → Bool
  | .operation _ _ => true
  | .directive .BYTE => true
  | .directive .WORD => true
  | .directive _ => false

namespace Placement

variable {placement : Placement} {base : Option UInt32} {line : PlacedLine}
variable {encoded : EncodedLine} {found : Operation} {extended : Bool}
variable {instruction : Instruction} {record : Option Relocation}

/-- The bytes reserved for an operation beyond its encoding: without an operand even an extended
reference has the simple form, which is one byte shorter. -/
def spare (line : PlacedLine) (found : Operation) (extended : Bool) : Nat :=
  if found.format = .three ∧ extended = true ∧ line.operand = none then 1 else 0

/-- **What was reserved for an operation is what it is encoded as** and what it has to spare. -/
theorem length_encodeOperation
    (succeeded : placement.encodeOperation base line found extended = .ok (instruction, record)) :
    found.length extended = instruction.length + spare line found extended := by
  unfold encodeOperation at succeeded
  split at succeeded
  · rename_i one
    cases succeeded
    simp [Operation.length, one, Instruction.length, spare]
  · rename_i two
    obtain ⟨_, _, succeeded⟩ := bind_eq_ok_iff.mp succeeded
    obtain ⟨_, _, same⟩ := bind_eq_ok_iff.mp succeeded
    cases same
    simp [Operation.length, two, Instruction.length, spare]
  · rename_i three
    split at succeeded
    · rename_i absent
      cases succeeded
      cases extended <;> simp [Operation.length, three, Instruction.length, spare, absent]
    · rename_i given
      obtain ⟨_, _, _, _, form⟩ := encodeReference_cases succeeded
      rw [form.length]
      simp [Operation.length, three, spare, given]

/-- A directive that has no data is encoded as nothing. -/
theorem encodeLine_of_not_emits (silent : line.command.emits = false)
    (succeeded : placement.encodeLine base line = .ok encoded) : encoded = {} := by
  unfold encodeLine at succeeded
  split at succeeded
  · rename_i isOperation
    rw [isOperation] at silent
    cases silent
  · rename_i isBytes
    rw [isBytes] at silent
    cases silent
  · rename_i isWord
    rw [isWord] at silent
    cases silent
  · cases succeeded
    rfl

/-- An operation takes the bytes of its encoding and what it has to spare. -/
theorem length_encodeLine_operation (sized : line.Sized)
    (isOperation : line.command = .operation found extended)
    (succeeded : placement.encodeLine base line = .ok encoded) :
    line.size = encoded.bytes.length + spare line found extended := by
  simp only [encodeLine, isOperation] at succeeded
  obtain ⟨⟨instruction, record⟩, operation, same⟩ := bind_eq_ok_iff.mp succeeded
  cases same
  simp only [PlacedLine.Sized, isOperation] at sized
  rw [Instruction.length_encode, sized]
  exact length_encodeOperation operation

/-- Data take the bytes of their encoding. -/
theorem length_encodeLine_data {directive : Directive} (sized : line.Sized)
    (isData : line.command = .directive directive) (emits : line.command.emits = true)
    (succeeded : placement.encodeLine base line = .ok encoded) :
    line.size = encoded.bytes.length := by
  unfold encodeLine at succeeded
  split at succeeded
  · rename_i isOperation
    cases isData.symm.trans isOperation
  · rename_i isBytes
    obtain ⟨text, operand, succeeded⟩ := bind_eq_ok_iff.mp succeeded
    obtain ⟨bytes, read, same⟩ := bind_eq_ok_iff.mp succeeded
    cases same
    simp only [PlacedLine.Sized, isBytes, getOperand_eq_ok_iff.mp operand,
      Option.getD_some] at sized
    obtain ⟨reserved, same, size⟩ := sized
    cases read.symm.trans same
    exact size
  · rename_i isWord
    obtain ⟨_, _, succeeded⟩ := bind_eq_ok_iff.mp succeeded
    obtain ⟨_, _, succeeded⟩ := bind_eq_ok_iff.mp succeeded
    obtain ⟨field, _, succeeded⟩ := bind_eq_ok_iff.mp succeeded
    split at succeeded
    · cases succeeded
      simp only [PlacedLine.Sized, isWord] at sized
      rw [Bytes.length_ofNat, sized]
    · cases succeeded
  · rename_i other notBytes notWord isOther
    rw [isOther] at emits
    cases other
    case BYTE => exact (notBytes rfl).elim
    case WORD => exact (notWord rfl).elim
    all_goals cases emits

/-- **The bytes of a line fit in what was reserved for it.** -/
theorem length_encodeLine_le (sized : line.Sized)
    (succeeded : placement.encodeLine base line = .ok encoded) :
    encoded.bytes.length ≤ line.size := by
  cases emits : line.command.emits with
  | false =>
    rw [encodeLine_of_not_emits emits succeeded]
    exact Nat.zero_le _
  | true =>
    cases command : line.command with
    | operation found extended =>
      rw [length_encodeLine_operation sized command succeeded]
      exact Nat.le_add_right _ _
    | directive directive =>
      exact Nat.le_of_eq (length_encodeLine_data sized command emits succeeded).symm

/-- A record of a line has one of three shapes, and its symbol is that of a value on the line. -/
structure RecordOrigin (placement : Placement) (line : PlacedLine) (record : Relocation)
    (length : Nat) : Prop where
  shape : LineRecord (placement.offset line) record length
  symbol : ∃ target text value field, placement.targetValue target line.address = .ok value ∧
    placement.addressField text value = .ok field ∧ field.symbol = some record.symbol

theorem RecordOrigin.of_none {length : Nat} :
    ∀ record, none = some record → placement.RecordOrigin line record length :=
  fun _ impossible => by cases impossible

/-- Where the record of a reference comes from. -/
theorem ReferenceForm.origin {operand : MemoryOperand} {opcode : UInt8} {text : String}
    {value : Value} (evaluated : placement.targetValue operand.target line.address = .ok value)
    (form : ReferenceForm placement base line opcode operand text value extended instruction
      record) :
    ∀ found, record = some found → placement.RecordOrigin line found instruction.length := by
  cases form with
  | @extended field holds =>
    intro found isRecord
    obtain ⟨symbol, isSymbol, rfl⟩ := Option.map_eq_some_iff.mp isRecord
    exact ⟨.address20 symbol, _, _, _, _, evaluated, holds, isSymbol⟩
  | imported isImport =>
    intro found isRecord
    cases isRecord
    have holds : placement.addressField text value = .ok ⟨value.constant, value.external⟩ := by
      simp only [addressField, isImport]
    exact ⟨.displacement _, _, _, _, _, evaluated, holds, isImport⟩
  | constant => exact RecordOrigin.of_none
  | based => exact RecordOrigin.of_none
  | counted => exact RecordOrigin.of_none

/-- Where the record of an operation comes from. -/
theorem encodeOperation_origin
    (succeeded : placement.encodeOperation base line found extended = .ok (instruction, record)) :
    ∀ found, record = some found → placement.RecordOrigin line found instruction.length := by
  unfold encodeOperation at succeeded
  split at succeeded
  · cases succeeded
    exact RecordOrigin.of_none
  · obtain ⟨_, _, succeeded⟩ := bind_eq_ok_iff.mp succeeded
    obtain ⟨_, _, same⟩ := bind_eq_ok_iff.mp succeeded
    cases same
    exact RecordOrigin.of_none
  · split at succeeded
    · cases succeeded
      exact RecordOrigin.of_none
    · obtain ⟨_, _, _, evaluated, form⟩ := encodeReference_cases succeeded
      exact form.origin evaluated

/-- **A record of a line has one of three shapes**, its field lies in the bytes of the line, and its
symbol is that of a value on the line. -/
theorem encodeLine_origin (succeeded : placement.encodeLine base line = .ok encoded) :
    ∀ record, encoded.record = some record →
      placement.RecordOrigin line record encoded.bytes.length := by
  unfold encodeLine at succeeded
  split at succeeded
  · obtain ⟨⟨instruction, record⟩, operation, same⟩ := bind_eq_ok_iff.mp succeeded
    cases same
    dsimp only
    rw [Instruction.length_encode]
    exact encodeOperation_origin operation
  · obtain ⟨_, _, succeeded⟩ := bind_eq_ok_iff.mp succeeded
    obtain ⟨_, _, same⟩ := bind_eq_ok_iff.mp succeeded
    cases same
    exact RecordOrigin.of_none
  · obtain ⟨_, _, succeeded⟩ := bind_eq_ok_iff.mp succeeded
    obtain ⟨_, evaluated, succeeded⟩ := bind_eq_ok_iff.mp succeeded
    obtain ⟨field, holds, succeeded⟩ := bind_eq_ok_iff.mp succeeded
    obtain ⟨expr, _, evaluated⟩ := bind_eq_ok_iff.mp evaluated
    split at succeeded
    · cases succeeded
      intro record isRecord
      obtain ⟨symbol, isSymbol, rfl⟩ := Option.map_eq_some_iff.mp isRecord
      exact ⟨.word symbol, .expression expr, _, _, _, evaluated, holds, isSymbol⟩
    · cases succeeded
  · cases succeeded
    exact RecordOrigin.of_none

/-- The bytes of a memory reference are those of one of its forms. -/
theorem encodeLine_reference {text : String}
    (isOperation : line.command = .operation found extended) (isThree : found.format = .three)
    (hasOperand : line.operand = some text)
    (succeeded : placement.encodeLine base line = .ok encoded) :
    ∃ operand value instruction, MemoryOperand.parse text = .ok operand ∧
      placement.targetValue operand.target line.address = .ok value ∧
      ReferenceForm placement base line found.opcode operand text value extended instruction
        encoded.record ∧ encoded.bytes = instruction.encode := by
  simp only [encodeLine, isOperation] at succeeded
  obtain ⟨⟨instruction, record⟩, operation, same⟩ := bind_eq_ok_iff.mp succeeded
  cases same
  simp only [encodeOperation, isThree, hasOperand] at operation
  obtain ⟨operand, value, parsed, evaluated, form⟩ := encodeReference_cases operation
  exact ⟨operand, value, instruction, parsed, evaluated, form, rfl⟩

/-- **A word holds the low 24 bits of its field**, which must fit them with or without a sign. -/
theorem encodeWord_cases (succeeded : placement.encodeWord line = .ok encoded) :
    ∃ text value field, line.operand = some text ∧ placement.eval text line.address = .ok value ∧
      placement.addressField text value = .ok field ∧
      -0x800000 ≤ field.value ∧ field.value ≤ 0xFFFFFF ∧
      encoded = ⟨Bytes.ofNat 3 (field.value % 0x1000000).toNat,
        field.symbol.map (Relocation.word (placement.offset line))⟩ := by
  obtain ⟨text, given, succeeded⟩ := bind_eq_ok_iff.mp succeeded
  obtain ⟨value, evaluated, succeeded⟩ := bind_eq_ok_iff.mp succeeded
  obtain ⟨field, holds, succeeded⟩ := bind_eq_ok_iff.mp succeeded
  split at succeeded
  · rename_i bounded
    cases succeeded
    exact ⟨text, value, field, getOperand_eq_ok_iff.mp given, evaluated, holds, bounded.1,
      bounded.2, rfl⟩
  · cases succeeded

end Placement

end Sicxe
