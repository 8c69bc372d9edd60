import Sicxe.Proofs.Link.Absolute
import Sicxe.Proofs.Machine.Reference

/-!
# References to imports in a linked program

A reference to an import keeps its addend in its field until the linker knows where the import is.
An extended field then has the address added, and a displacement becomes the distance to it.

* `Placement.Assembled.linked_extended`, `Placement.Assembled.linked_relative`: the reference that a
  line holds once its module is fixed up.
* `Object.linkAbsolute_refersTo`: every reference to an import of an assembled module goes to where
  the exporter of the import has it.
-/

namespace Sicxe

open Relocation (FixedBy)

namespace Instruction

/-- The place of the operand of an instruction that refers to `target` is found from `target`. -/
theorem RefersTo.operand_eq {instruction : Instruction} {registers : Registers} {next : Nat}
    {operand : MemoryOperand} {target : Int}
    (refersTo : instruction.RefersTo registers next operand target) (memory : Memory) (pc : Nat) :
    instruction.operand ⟨memory, registers, pc, next⟩ =
      Reference.locate ⟨operand.mode, operand.indexed, target⟩ memory registers := by
  obtain ⟨reference, found, addressing, indexed, address⟩ := refersTo.address
  have location : reference.effectiveAddress registers =
      Reference.effectiveAddress ⟨operand.mode, operand.indexed, target⟩ registers := by
    rw [Word.unsigned_eq_iff] at address
    rw [Reference.effectiveAddress, Reference.effectiveAddress, indexed, Word.unsigned_eq_iff]
    dsimp only
    omega
  unfold Instruction.operand
  rw [found]
  show reference.locate memory registers = _
  unfold Reference.locate
  rw [location, addressing]

end Instruction

/-- The flags of a reference to an import: those that its operand asks for, and a field that is an
address of 20 bits or a distance from the next instruction. -/
def Placement.importFlags (operand : MemoryOperand) (extended : Bool) : Flags :=
  { operandFlags operand with p := !extended, e := extended }

/-- The code of a module that is fixed up for `origin` holds, at the offset of a line, an
instruction that refers to a target. -/
structure FixedReference (placement : Placement) (fixed : Array UInt8) (origin : Nat)
    (line : PlacedLine) (operand : MemoryOperand) (opcode : UInt8) (extended : Bool)
    (target : Int) (instruction : Instruction) : Prop where
  wellFormed : instruction.WellFormed
  opcode : instruction.opcode = opcode
  flags : instruction.flags? = some (Placement.importFlags operand extended)
  holds : Bytes.slice fixed (placement.offset line) instruction.length = instruction.encode
  refersTo : ∀ registers, instruction.RefersTo registers
    (origin + placement.offset line + instruction.length) operand target

namespace Placement.Assembled

variable {placement : Placement} {object : Object} {before after : List EmittedLine}
variable {line : PlacedLine} {encoded : EncodedLine} {address : String → Option UInt32}
variable {origin : Nat} {fixed : Array UInt8} {inForce : Option UInt32} {found : Operation}
variable {operand : MemoryOperand} {text symbol : String} {value : Value}
variable {instruction : Instruction} {record : Option Relocation}

theorem wellFormed_relative {field : Nat} (inTable : found ∈ Operation.table)
    (isThree : found.format = .three) (small : field < 0x1000) :
    (Instruction.relative found.opcode { operandFlags operand with p := true } field).WellFormed :=
  ⟨found, inTable, rfl, isThree, rfl, operandFlags_marked operand, small⟩

/-- An extended reference to an import has the address of the import added to the addend. -/
theorem linked_extended
    (assembled : placement.Assembled object (before ++ ⟨line, encoded⟩ :: after))
    (run : FixedBy address origin object.relocations object.code fixed)
    (inTable : found ∈ Operation.table) (isThree : found.format = .three)
    (parsed : MemoryOperand.parse text = .ok operand) (isImport : value.external = some symbol)
    (form : ReferenceForm placement inForce line found.opcode operand text value true instruction
      record) (isRecord : encoded.record = record) (isBytes : encoded.bytes = instruction.encode) :
    ∃ target linked, address symbol = some target ∧ FixedReference placement fixed origin line
      operand found.opcode true (target.toNat + value.constant) linked := by
  cases form with
  | @extended field holds least greatest =>
    simp only [addressField, isImport] at holds
    cases holds
    obtain ⟨target, isTarget, small, slice⟩ :=
      assembled.slice_moved run isRecord (show _ < 0x100000 by omega) isBytes
    refine ⟨target, _, isTarget, wellFormed_extended inTable isThree small, rfl, rfl, slice,
      fun registers => ReferenceForm.extended_refersTo parsed ?_⟩
    dsimp only at least ⊢
    omega

/-- A shorter reference to an import is the distance to where the addend leads from the import. -/
theorem linked_relative
    (assembled : placement.Assembled object (before ++ ⟨line, encoded⟩ :: after))
    (run : FixedBy address origin object.relocations object.code fixed)
    (inTable : found ∈ Operation.table) (isThree : found.format = .three)
    (parsed : MemoryOperand.parse text = .ok operand) (isImport : value.external = some symbol)
    (form : ReferenceForm placement inForce line found.opcode operand text value false instruction
      record) (isRecord : encoded.record = record) (isBytes : encoded.bytes = instruction.encode) :
    ∃ target linked, address symbol = some target ∧ FixedReference placement fixed origin line
      operand found.opcode false (target.toNat + value.constant) linked := by
  cases form with
  | @imported name isName least greatest =>
    cases isImport.symm.trans isName
    obtain ⟨target, distance, isTarget, isDistance, near, far, slice⟩ :=
      assembled.slice_displaced run isRecord (show _ < 0x1000 by omega) isBytes
    rw [signExtend_of_near least greatest] at isDistance
    refine ⟨target, _, isTarget, wellFormed_relative inTable isThree (by omega), rfl, rfl, slice,
      fun registers => ReferenceForm.counted_refersTo parsed near far (congrArg Word.unsigned ?_)⟩
    dsimp only [Instruction.length] at isDistance ⊢
    omega
  | constant isLocal => cases isImport.symm.trans isLocal
  | based isLocal => cases isImport.symm.trans isLocal
  | counted isLocal => cases isImport.symm.trans isLocal

end Placement.Assembled

namespace Object

/-- A linked program holds at the address of a line an instruction that refers to a target in the
way of the operand of the line. -/
structure LinkedReference (linked : Object) (line : PlacedLine) (operand : MemoryOperand)
    (opcode : UInt8) (extended : Bool) (target : Int) (instruction : Instruction) : Prop where
  begins : linked.start.toNat ≤ line.address
  decoded : Instruction.decode (linked.code.toList.drop (line.address - linked.start.toNat)) =
    .ok instruction
  opcode : instruction.opcode = opcode
  flags : instruction.flags? = some (Placement.importFlags operand extended)
  refersTo : ∀ registers,
    instruction.RefersTo registers (line.address + instruction.length) operand target
  operand : ∀ memory registers pc,
    instruction.operand ⟨memory, registers, pc, line.address + instruction.length⟩ =
      Reference.locate ⟨operand.mode, operand.indexed, target⟩ memory registers

variable {placement : Placement} {object linked : Object} {fixed : Array UInt8}
variable {line : PlacedLine} {operand : MemoryOperand} {opcode : UInt8} {extended : Bool}
variable {target : Int} {instruction : Instruction}

/-- A program that holds a fixed module has the references of the module. -/
theorem linkedReference_of_agree (begins : linked.start.toNat ≤ placement.start)
    (agree : Bytes.Agree linked.code (placement.start - linked.start.toNat) fixed fixed.size)
    (fromStart : placement.start ≤ line.address)
    (reference : FixedReference placement fixed placement.start line operand opcode extended target
      instruction) : LinkedReference linked line operand opcode extended target instruction := by
  have isOffset : placement.offset line = line.address - placement.start := rfl
  have position : placement.start - linked.start.toNat + placement.offset line =
      line.address - linked.start.toNat := by omega
  have address : placement.start + placement.offset line = line.address := by omega
  have inCode : placement.offset line + instruction.length ≤ fixed.size := by
    refine Bytes.fits_of_length_slice ?_ instruction.length_le_four.1
    rw [reference.holds, Instruction.length_encode]
  have holds := agree.slice inCode
  rw [position, reference.holds] at holds
  have refersTo := reference.refersTo
  rw [address] at refersTo
  refine ⟨Nat.le_trans begins fromStart, ?_, reference.opcode, reference.flags, refersTo,
    fun memory registers pc => (refersTo registers).operand_eq memory pc⟩
  rw [Bytes.drop_eq_slice_append _ _ instruction.length, holds,
    Instruction.decode_encode reference.wellFormed]

/-- **References to imports reach their exporters.** -/
theorem linkAbsolute_refersTo {modules : List Object} {source text symbol : String}
    {found : Operation} {value : Value}
    (assembled : ∀ object ∈ modules, ∃ source placement, assemble source = .ok (placement, object))
    (succeeded : link modules .absolute = .ok linked) (member : object ∈ modules)
    (made : assemble source = .ok (placement, object)) (inLines : line ∈ placement.lines)
    (isOperation : line.command = .operation found extended) (isThree : found.format = .three)
    (hasOperand : line.operand = some text) (parsed : MemoryOperand.parse text = .ok operand)
    (evaluated : placement.targetValue operand.target line.address = .ok value)
    (isImport : value.external = some symbol) :
    ∃ address instruction, linked.symbols.address? symbol = some address ∧
      LinkedReference linked line operand found.opcode extended (address.toNat + value.constant)
        instruction := by
  have sound : ∀ object ∈ modules, object.SoundRecords := fun object inModules => by
    obtain ⟨source, placement, made⟩ := assembled object inModules
    exact assemble_soundRecords made
  obtain ⟨begins, fixed, run, agree⟩ := (linkedAtStarts succeeded).exists_fixed sound member
  obtain ⟨placed, emitted, isAssembled⟩ := assemble_assembled made
  have inTable := Placement.mem_table_of_operation placed inLines isOperation
  obtain ⟨before, after, split⟩ := List.append_of_mem inLines
  obtain ⟨linesBefore, linesAfter, encoded, inForce, rfl, _, encodes⟩ :=
    isAssembled.exists_split split
  obtain ⟨otherOperand, otherValue, instruction, parsedAgain, evaluatedAgain, form, isBytes⟩ :=
    Placement.encodeLine_reference isOperation isThree hasOperand encodes
  cases parsed.symm.trans parsedAgain
  cases evaluated.symm.trans evaluatedAgain
  have start : object.start.toNat = placement.start := by
    have bounded : placement.start < 0x100000 := isAssembled.bounded
    rw [isAssembled.start, UInt32.toNat_ofNat']
    omega
  rw [start] at begins run agree
  rw [← run.size_eq] at agree
  obtain ⟨address, moved, isAddress, reference⟩ : ∃ target moved,
      linked.symbols.address? symbol = some target ∧ FixedReference placement fixed placement.start
        line operand found.opcode extended (target.toNat + value.constant) moved := by
    cases extended with
    | true =>
      exact isAssembled.linked_extended run inTable isThree parsed isImport form rfl isBytes
    | false =>
      exact isAssembled.linked_relative run inTable isThree parsed isImport form rfl isBytes
  exact ⟨address, moved, isAddress,
    linkedReference_of_agree begins agree isAssembled.offset_eq.1 reference⟩

/-- A load from the import `B`. -/
def importLine (number address : Nat) (extended : Bool) : PlacedLine :=
  ⟨number, none, .operation ⟨.LDA, 0x00, .three, .memory, .load .A⟩ extended, some "B", address,
    if extended then 4 else 3⟩

/-- The program of the module that refers to the import. -/
def callingProgram : Placement where
  name := "A"
  start := 0
  length := 10
  lines := [⟨1, some "A", .directive .START, some "0", 0, 0⟩,
    ⟨2, none, .directive .EXTREF, some "B", 0, 0⟩, importLine 3 0 false, importLine 4 3 true,
    ⟨5, none, .directive .WORD, some "A", 7, 3⟩, ⟨6, none, .directive .END, none, 10, 0⟩]
  symbols := ⟨[⟨"A", 0, true, false⟩]⟩
  imports := ["B"]
  literals := []
  source := ["A START 0", " EXTREF B", " LDA B", " +LDA B", " WORD A", " END"]

theorem callingProgram_assembled :
    assemble "A START 0\n EXTREF B\n LDA B\n +LDA B\n WORD A\n END" =
      .ok (callingProgram, callingModule) :=
  ok_of_toOption (by decide +kernel)

/-- In the program of the two modules, both loads refer to the address 16 of the import. -/
theorem linkAbsolute_refersTo_calling_called :
    ∃ linked near far, link [callingModule, calledModule] .absolute = .ok linked ∧
      LinkedReference linked (importLine 3 0 false)
        ⟨.simple, .expression ⟨"B", [⟨false, .symbol "B"⟩]⟩, false⟩ 0x00 false 16 near ∧
      LinkedReference linked (importLine 4 3 true)
        ⟨.simple, .expression ⟨"B", [⟨false, .symbol "B"⟩]⟩, false⟩ 0x00 true 16 far := by
  obtain ⟨linked, succeeded, _⟩ := linkAbsolute_calling_called
  have globals : PlacedObject.globals (atStarts [callingModule, calledModule]) =
      .ok ⟨[⟨"A", 0, true, false⟩, ⟨"B", 16, true, false⟩]⟩ := ok_of_toOption (by decide +kernel)
  have symbols := Except.ok.inj ((linkedAtStarts succeeded).symbols.symm.trans globals)
  have isAddress : linked.symbols.address? "B" = some 16 := by
    rw [symbols]
    rfl
  have nearLine : importLine 3 0 false ∈ callingProgram.lines := by decide
  have farLine : importLine 4 3 true ∈ callingProgram.lines := by decide
  obtain ⟨address, near, found, isNear⟩ := linkAbsolute_refersTo calling_called_assembled succeeded
    List.mem_cons_self callingProgram_assembled nearLine rfl rfl rfl rfl rfl rfl
  obtain ⟨other, far, foundAgain, isFar⟩ := linkAbsolute_refersTo calling_called_assembled succeeded
    List.mem_cons_self callingProgram_assembled farLine rfl rfl rfl rfl rfl rfl
  cases isAddress.symm.trans found
  cases isAddress.symm.trans foundAgain
  exact ⟨linked, near, far, succeeded, isNear, isFar⟩

end Object

end Sicxe
