import Sicxe.Proofs.Assembly.Base
import Sicxe.Proofs.Assembly.FixedLine
import Sicxe.Proofs.Assembly.Statements
import Sicxe.Proofs.Machine.Loading
import Sicxe.Proofs.Symbol.Table
import Sicxe.Proofs.Word

/-!
# References of a loaded program

A program that is moved takes its references with it. Counted from the next instruction or from the
base register, a reference keeps its distance; an extended reference has the new address added by
its record.

* `Instruction.RefersTo`: what the machine makes of the reference of an instruction.
* `Placement.Assembled.moved_extended`, `Placement.Assembled.moved_relative`: the reference that a
  line holds once its module is fixed up for the address where it is loaded.
* `Machine.load_refersTo`: every reference to an address of a program with a name finds its target
  wherever the program is loaded.
-/

namespace Sicxe

open Relocation (FixedBy)

namespace Instruction

/-- Whether an instruction counts its address from the base register. -/
def usesBase : Instruction → Bool
  | relative _ flags _ => flags.b
  | _ => false

/-- With the next instruction at `next`, an instruction refers to `target` in the way of an operand.
The address is taken before indexing, and before a pointer is followed; an immediate operand is the
address itself. -/
structure RefersTo (instruction : Instruction) (registers : Registers) (next : Nat)
    (operand : MemoryOperand) (target : Int) : Prop where
  address : ∃ reference, Reference.ofInstruction? registers next instruction = some reference ∧
    reference.addressing = operand.mode ∧ reference.indexed = operand.indexed ∧
    Word.unsigned reference.address = Word.unsigned target
  immediate : operand.mode = .immediate → ∀ memory pc,
    instruction.operand ⟨memory, registers, pc, next⟩ = .ok (.immediate (Word.signed target))

end Instruction

/-- The reference of an instruction settles its immediate operand. -/
theorem Instruction.refersTo_of_reference {instruction : Instruction} {registers : Registers}
    {next : Nat} {text : String} {operand : MemoryOperand} {target : Int} {reference : Reference}
    (parsed : MemoryOperand.parse text = .ok operand)
    (found : Reference.ofInstruction? registers next instruction = some reference)
    (addressing : reference.addressing = operand.mode)
    (indexed : reference.indexed = operand.indexed)
    (address : Word.unsigned reference.address = Word.unsigned target) :
    instruction.RefersTo registers next operand target := by
  refine ⟨⟨reference, found, addressing, indexed, address⟩, fun isImmediate memory pc => ?_⟩
  have notIndexed : reference.indexed = false := by
    rw [indexed]
    refine MemoryOperand.indexed_eq_false parsed ?_
    rw [isImmediate]
    decide
  have location : reference.effectiveAddress registers = Word.unsigned target := by
    rw [Reference.effectiveAddress, notIndexed, if_neg Bool.false_ne_true, Int.add_zero, address]
  unfold Instruction.operand
  rw [found]
  show reference.locate memory registers = _
  unfold Reference.locate
  rw [addressing, isImmediate, location]
  show Except.ok (Place.immediate (Word.signed (Word.unsigned target))) = _
  rw [Word.signed_unsigned]

/-! ### Where references go -/

namespace Placement.ReferenceForm

variable {placement : Placement} {base : Option UInt32} {line : PlacedLine} {opcode : UInt8}
variable {operand : MemoryOperand} {text : String} {registers : Registers} {next : Nat}
variable {target : Int}

theorem extended_refersTo {address : Nat} (parsed : MemoryOperand.parse text = .ok operand)
    (isTarget : (address : Int) = target) :
    (Instruction.extended opcode { operandFlags operand with e := true } address).RefersTo registers
      next operand target :=
  Instruction.refersTo_of_reference parsed rfl (addressing_operandFlags operand false false true)
    rfl (congrArg Word.unsigned isTarget)

/-- A reference counted from the next instruction goes as far as the encoding says. -/
theorem counted_refersTo {distance : Int} (parsed : MemoryOperand.parse text = .ok operand)
    (least : -2048 ≤ distance) (greatest : distance ≤ 2047)
    (isTarget : Word.unsigned (next + distance) = Word.unsigned target) :
    (Instruction.relative opcode { operandFlags operand with p := true }
      (distance % 4096).toNat).RefersTo registers next operand target := by
  refine Instruction.refersTo_of_reference parsed rfl
    (addressing_operandFlags operand false true false) rfl ?_
  show Word.unsigned (next + signExtend 12 ((distance % 4096).toNat : Int)) = _
  rw [signExtend_of_near least greatest, isTarget]

/-- A reference counted from the base goes as far behind the base register. -/
theorem based_refersTo {distance : Nat} (parsed : MemoryOperand.parse text = .ok operand)
    (isTarget : Word.unsigned (registers.b + distance) = Word.unsigned target) :
    (Instruction.relative opcode { operandFlags operand with b := true } distance).RefersTo
      registers next operand target :=
  Instruction.refersTo_of_reference parsed rfl (addressing_operandFlags operand true false false)
    rfl isTarget

end Placement.ReferenceForm

namespace Placement

variable {placement : Placement} {object : Object}

/-- The name of a program stands for the address that the program is loaded at. -/
theorem address?_name {source : String} (base : UInt32)
    (placed : Placement.ofSource source = .ok placement) (nonempty : placement.name ≠ "")
    (start : object.start = UInt32.ofNat placement.start)
    (symbols : object.symbols = placement.symbols) :
    (object.symbolsAt base).address? placement.name = some base := by
  rw [SymbolTable.address?, Object.symbolsAt, SymbolTable.get?_rebased, symbols,
    start_symbol placed nonempty, start]
  show some (base + (UInt32.ofNat placement.start - UInt32.ofNat placement.start)) = some base
  rw [UInt32.sub_self, UInt32.add_zero]

end Placement

/-- The code that an assembled program is loaded as holds, at the offset of a line, an instruction
that refers to a target once it is at `base`. The base register counts as moved when it holds the
base address `inForce` moved with the program. -/
structure MovedReference (placement : Placement) (fixed : Array UInt8) (base : UInt32)
    (inForce : Option UInt32) (line : PlacedLine) (operand : MemoryOperand) (opcode : UInt8)
    (target : Int) (moved : Instruction) : Prop where
  wellFormed : moved.WellFormed
  opcode : moved.opcode = opcode
  holds : Bytes.slice fixed (placement.offset line) moved.length = moved.encode
  refersTo : ∀ registers next, Word.unsigned (next : Nat) =
      Word.unsigned (base.toNat + placement.offset line + moved.length : Nat) →
    (moved.usesBase = true → ∃ stored, inForce = some stored ∧
      Word.unsigned registers.b = Word.unsigned (base.toNat + (stored.toNat - placement.start))) →
    moved.RefersTo registers next operand (base.toNat + (target - placement.start))

namespace Placement.Assembled

variable {placement : Placement} {object : Object} {before after : List EmittedLine}
variable {line : PlacedLine} {encoded : EncodedLine} {address : String → Option UInt32}
variable {base : UInt32} {fixed : Array UInt8} {inForce : Option UInt32} {found : Operation}
variable {operand : MemoryOperand} {text : String} {value : Value} {instruction : Instruction}

theorem wellFormed_extended {field : Nat} (inTable : found ∈ Operation.table)
    (isThree : found.format = .three) (small : field < 0x100000) :
    (Instruction.extended found.opcode { operandFlags operand with e := true } field).WellFormed :=
  ⟨found, inTable, rfl, isThree, rfl, operandFlags_marked operand, small⟩

/-- The line of an extended reference holds the reference moved by its record. -/
theorem moved_extended {record : Option Relocation}
    (assembled : placement.Assembled object (before ++ ⟨line, encoded⟩ :: after))
    (run : FixedBy address base.toNat object.relocations object.code fixed)
    (name : address placement.name = some base) (named : placement.name ≠ "")
    (inTable : found ∈ Operation.table) (isThree : found.format = .three)
    (parsed : MemoryOperand.parse text = .ok operand)
    (moves : value.relative = 1) (isLocal : value.external = none)
    (form : ReferenceForm placement inForce line found.opcode operand text value true instruction
      record) (isRecord : encoded.record = record) (isBytes : encoded.bytes = instruction.encode) :
    ∃ moved, MovedReference placement fixed base inForce line operand found.opcode value.constant
      moved := by
  cases form with
  | @extended field holds least greatest =>
    simp only [addressField, isLocal, moves, true_and, if_pos named] at holds
    cases holds
    obtain ⟨target, isTarget, small, slice⟩ :=
      assembled.slice_moved run isRecord (show _ < 0x100000 by omega) isBytes
    cases name.symm.trans isTarget
    refine ⟨_, wellFormed_extended inTable isThree small, rfl, slice,
      fun registers next _ _ => ReferenceForm.extended_refersTo parsed ?_⟩
    dsimp only at least ⊢
    omega

/-- The line of a shorter reference holds the reference as it was encoded. -/
theorem moved_relative {record : Option Relocation}
    (assembled : placement.Assembled object (before ++ ⟨line, encoded⟩ :: after))
    (run : FixedBy address base.toNat object.relocations object.code fixed)
    (inTable : found ∈ Operation.table) (isThree : found.format = .three)
    (parsed : MemoryOperand.parse text = .ok operand)
    (moves : value.relative = 1) (isLocal : value.external = none)
    (form : ReferenceForm placement inForce line found.opcode operand text value false instruction
      record) (isRecord : encoded.record = record) (isBytes : encoded.bytes = instruction.encode) :
    ∃ moved, MovedReference placement fixed base inForce line operand found.opcode value.constant
      moved := by
  have wellFormed := form.wellFormed inTable isThree
  have fromStart : placement.start ≤ line.address := assembled.offset_eq.1
  have isOffset : placement.offset line = line.address - placement.start := rfl
  have kept : encoded.record = none →
      Bytes.slice fixed (placement.offset line) instruction.length = instruction.encode := by
    intro free
    have slice := assembled.slice_kept run free
    dsimp only at slice
    rw [isBytes, Instruction.length_encode] at slice
    exact slice
  cases form with
  | imported isImport =>
    rw [isLocal] at isImport
    cases isImport
  | constant _ isFixed =>
    rw [moves] at isFixed
    cases isFixed
  | @based distance _ _ near =>
    obtain ⟨stored, isStored, isTarget, _⟩ := baseDistance?_eq_some near
    refine ⟨_, wellFormed, rfl, kept isRecord, fun registers next _ isBase =>
      ReferenceForm.based_refersTo parsed ?_⟩
    obtain ⟨other, isOther, register⟩ := isBase rfl
    cases isStored.symm.trans isOther
    rw [Word.unsigned_eq_iff] at register ⊢
    omega
  | counted _ _ _ least greatest =>
    refine ⟨_, wellFormed, rfl, kept isRecord, fun registers next isNext _ =>
      ReferenceForm.counted_refersTo parsed least greatest ?_⟩
    rw [Word.unsigned_eq_iff] at isNext ⊢
    dsimp only [Instruction.length] at isNext
    omega

end Placement.Assembled

namespace Machine

variable {source : String} {placement : Placement} {object : Object} {machine loaded : Machine}
variable {report : LoadReport} {base : UInt32} {before after : List PlacedLine} {line : PlacedLine}

/-- **References reach their targets wherever the program is loaded.** A program whose `START` has a
label is loaded at `base`. Each of its references to an address of the program goes to where that
address has come to lie, in whatever form it was encoded, as long as the base register has moved
with the program when the reference counts from it. -/
theorem load_refersTo {found : Operation} {extended : Bool} {text : String}
    {operand : MemoryOperand} {value : Value}
    (assembled : assemble source = .ok (placement, object))
    (labelled : ∃ start ∈ placement.lines, start.command = .directive .START ∧ start.label ≠ none)
    (loads : machine.load object (some base) = .ok (loaded, report))
    (split : placement.lines = before ++ line :: after)
    (isOperation : line.command = .operation found extended) (isThree : found.format = .three)
    (hasOperand : line.operand = some text) (parsed : MemoryOperand.parse text = .ok operand)
    (evaluated : placement.targetValue operand.target line.address = .ok value)
    (moves : value.relative = 1) (isLocal : value.external = none) :
    ∃ instruction,
      Instruction.fetch loaded.memory (base.toNat + placement.offset line) = .ok instruction ∧
      instruction.opcode = found.opcode ∧
      ∀ registers next, Word.unsigned (next : Nat) =
          Word.unsigned (base.toNat + placement.offset line + instruction.length : Nat) →
        (instruction.usesBase = true → ∃ address, placement.BaseInForce before address ∧
          registers.b = Word.signed (base.toNat + (address - placement.start))) →
        instruction.RefersTo registers next operand
          (base.toNat + (value.constant - placement.start)) := by
  obtain ⟨placed, emitted, made⟩ := assemble_assembled assembled
  obtain ⟨linesBefore, linesAfter, encoded, inForce, rfl, reached, encodes⟩ :=
    made.exists_split split
  obtain ⟨startLine, inLines, isStart, hasLabel⟩ := labelled
  obtain ⟨label, isLabel⟩ := Option.ne_none_iff_exists'.mp hasLabel
  obtain ⟨isName, labelNonempty⟩ := Placement.name_of_start placed inLines isStart isLabel
  have named : placement.name ≠ "" := isName ▸ labelNonempty
  have inTable : found ∈ Operation.table :=
    Placement.mem_table_of_operation placed (split ▸ List.mem_append_right _ List.mem_cons_self)
      isOperation
  obtain ⟨otherOperand, otherValue, instruction, parsedAgain, evaluatedAgain, form, isBytes⟩ :=
    Placement.encodeLine_reference isOperation isThree hasOperand encodes
  cases parsed.symm.trans parsedAgain
  cases evaluated.symm.trans evaluatedAgain
  obtain ⟨fixed, run, agree, room⟩ := load_holds made.movable loads
  have name := Placement.address?_name base placed named made.start made.symbols
  obtain ⟨moved, isMoved⟩ : ∃ moved, MovedReference placement fixed base inForce line operand
      found.opcode value.constant moved := by
    cases extended with
    | true =>
      exact made.moved_extended run name named inTable isThree parsed moves isLocal form rfl isBytes
    | false => exact made.moved_relative run inTable isThree parsed moves isLocal form rfl isBytes
  refine ⟨moved, ?_, isMoved.opcode, fun registers next isNext isBase =>
    isMoved.refersTo registers next isNext fun usesBase => ?_⟩
  · have inCode : placement.offset line + moved.length ≤ fixed.size := by
      refine Bytes.fits_of_length_slice ?_ moved.length_le_four.1
      rw [isMoved.holds, Instruction.length_encode]
    rw [run.size_eq] at inCode
    refine Instruction.fetch_of_slice isMoved.wellFormed (by omega) ?_
    rw [agree.slice inCode, isMoved.holds]
  · obtain ⟨address, isAddress, register⟩ := isBase usesBase
    refine ⟨_, Placement.base_eq_of_inForce reached isAddress, ?_⟩
    rw [register, Word.unsigned_signed, Word.unsigned_eq_iff, toNat_ofInt_emod]
    omega

/-- A load of the address of the word behind it. -/
def loadLine : PlacedLine :=
  ⟨2, none, .operation ⟨.LDA, 0x00, .three, .memory, .load .A⟩ true, some "#X", 16, 4⟩

/-- A program that starts with the load. -/
def loadProgram : Placement where
  name := "P"
  start := 16
  length := 7
  lines := [⟨1, some "P", .directive .START, some "16", 16, 0⟩, loadLine,
    ⟨3, some "X", .directive .WORD, some "7", 20, 3⟩, ⟨4, none, .directive .END, none, 23, 0⟩]
  symbols := ⟨[⟨"P", 16, true, false⟩, ⟨"X", 20, false, false⟩]⟩
  imports := []
  literals := []
  source := ["P START 16", " +LDA #X", "X WORD 7", " END"]

/-- The module of the program. -/
def loadModule : Object where
  name := "P"
  start := 16
  entry := 16
  code := #[1, 16, 0, 4, 0, 0, 7]
  symbols := ⟨[⟨"P", 16, true, false⟩, ⟨"X", 20, false, false⟩]⟩
  relocations := [.address20 0 "P"]
  source := some ["P START 16", " +LDA #X", "X WORD 7", " END"]

theorem loadProgram_assembled :
    assemble "P START 16\n +LDA #X\nX WORD 7\n END" = .ok (loadProgram, loadModule) :=
  ok_of_toOption (by decide +kernel)

/-- Loaded at address 256, the program finds the address 260 of its word. -/
theorem load_refersTo_loadProgram :
    ∃ loaded report instruction,
      ({ memory := Memory.zeros 1024 } : Machine).load loadModule (some 256) =
        .ok (loaded, report) ∧
      Instruction.fetch loaded.memory 256 = .ok instruction ∧
      ∀ registers, instruction.usesBase = false →
        instruction.RefersTo registers (256 + instruction.length)
          ⟨.immediate, .expression ⟨"X", [⟨false, .symbol "X"⟩]⟩, false⟩ 260 := by
  obtain ⟨⟨loaded, report⟩, loads⟩ : ∃ result,
      ({ memory := Memory.zeros 1024 } : Machine).load loadModule (some 256) = .ok result :=
    exists_ok_of_isSome (by decide +kernel)
  have split : loadProgram.lines = [_] ++ loadLine :: _ := rfl
  have parsed : MemoryOperand.parse "#X" =
    .ok ⟨.immediate, .expression ⟨"X", [⟨false, .symbol "X"⟩]⟩, false⟩ := rfl
  have evaluated : loadProgram.targetValue (.expression ⟨"X", [⟨false, .symbol "X"⟩]⟩) 16 =
    .ok ⟨20, 1, none⟩ := rfl
  obtain ⟨instruction, fetched, _, refersTo⟩ := load_refersTo loadProgram_assembled
    ⟨_, List.mem_cons_self, rfl, by decide⟩ loads split rfl rfl rfl parsed evaluated rfl rfl
  refine ⟨loaded, report, instruction, loads, fetched, fun registers notBased => ?_⟩
  refine refersTo registers (256 + instruction.length) rfl fun usesBase => ?_
  rw [notBased] at usesBase
  cases usesBase

end Machine

end Sicxe
