import Sicxe.Assembly.Placement
import Sicxe.Instruction.Codec
import Sicxe.Object.Basic

/-!
# Encoding

Every placed line is encoded by itself, given the base address in force: `Placement.encodeLine`
yields its bytes and the relocation record of its field, if it needs one. An `Emission` writes the
bytes of the lines into the code one by one, and `Placement.toObject` is the finished module.

A memory reference to an address of the program is relative to the base when the distance is
within 0 to 4095, and relative to the next instruction otherwise. Such a field needs no record. The
fields that hold addresses themselves refer to the name of the program, so that they move with it.
-/

namespace Sicxe

/-- The bytes of a line and the record of the field in them that has to be fixed up. -/
structure EncodedLine where
  bytes : List UInt8 := []
  record : Option Relocation := none
  deriving DecidableEq, Repr

/-- The value of an address field and the symbol that has to be added to it later. -/
structure AddressField where
  value : Int
  symbol : Option String
  deriving DecidableEq, Repr

namespace PlacedLine

/-- The operand of a line that must have one. -/
def getOperand (line : PlacedLine) : Except AssemblyError String :=
  match line.operand with
  | some text => .ok text
  | none => .error (.missingOperand line.command.text)

end PlacedLine

namespace Placement

/-- The value of an operand on the line at address `here`, seen from the whole program. -/
def eval (placement : Placement) (text : String) (here : Nat) : Except AssemblyError Value :=
  Value.ofText text here (Value.lookup placement.symbols.get? placement.imports)

/-- The value of a parsed operand on the line at address `here`. -/
def evalExpr (placement : Placement) (expr : Expr) (here : Nat) : Except AssemblyError Value :=
  expr.eval here (Value.lookup placement.symbols.get? placement.imports)

/-- The address of a placed literal. -/
def literalAddress? (placement : Placement) (literal : String) : Option Nat :=
  placement.literals.lookup literal

/-- The offset of a line from the start of the program. -/
def offset (placement : Placement) (line : PlacedLine) : Nat :=
  line.address - placement.start

/-- The field for a value that is an address. An import is added later. In a program with a name,
an address of the program is stored as its distance from the start, and the name is added
later. -/
def addressField (placement : Placement) (text : String) (value : Value) :
    Except AssemblyError AddressField :=
  match value.external with
  | some symbol => .ok ⟨value.constant, some symbol⟩
  | none =>
    if value.relative = 1 ∧ placement.name ≠ "" then
      .ok ⟨value.constant - placement.start, some placement.name⟩
    else if value.relative = 0 ∨ value.relative = 1 then
      .ok ⟨value.constant, none⟩
    else
      .error (.badExpression text)

/-- The value that a memory operand refers to. -/
def targetValue (placement : Placement) (target : Target) (here : Nat) :
    Except AssemblyError Value :=
  match target with
  | .literal literal =>
    match placement.literalAddress? literal with
    | some address => .ok (.address address)
    | none => .error (.undefinedSymbol literal)
  | .expression expr => placement.evalExpr expr here

/-- The flags that an addressing mode and indexing ask for. -/
def operandFlags (operand : MemoryOperand) : Flags where
  n := operand.mode != .immediate
  i := operand.mode != .indirect
  x := operand.indexed

/-- An extended reference: its field is an address of 20 bits. -/
def encodeExtended (placement : Placement) (line : PlacedLine) (opcode : UInt8) (flags : Flags)
    (text : String) (value : Value) :
    Except AssemblyError (Instruction × Option Relocation) := do
  let field ← placement.addressField text value
  if 0 ≤ field.value ∧ field.value ≤ 0xFFFFF then
    return (.extended opcode { flags with e := true } field.value.toNat,
      field.symbol.map (Relocation.address20 (placement.offset line)))
  else
    .error (.valueRange field.value 20)

/-- A reference to an import: the field keeps the addend until the import has an address. -/
def encodeImport (placement : Placement) (line : PlacedLine) (opcode : UInt8) (flags : Flags)
    (symbol : String) (addend : Int) :
    Except AssemblyError (Instruction × Option Relocation) :=
  if -2048 ≤ addend ∧ addend ≤ 2047 then
    .ok (.relative opcode { flags with p := true } (addend % 4096).toNat,
      some (Relocation.displacement (placement.offset line) symbol))
  else
    .error (.valueRange addend 12)

/-- A reference to a constant, which never moves with the program. -/
def encodeConstant (opcode : UInt8) (flags : Flags) (value : Int) :
    Except AssemblyError Instruction :=
  if 0 ≤ value ∧ value ≤ 4095 then .ok (.relative opcode flags value.toNat)
  else .error (.valueRange value 12)

/-- The distance of a target from the base address, if there is one and it is near enough. -/
def baseDistance? (base : Option UInt32) (target : Int) : Option Nat :=
  match base with
  | none => none
  | some base =>
    let distance := target - base.toNat
    if 0 ≤ distance ∧ distance ≤ 4095 then some distance.toNat else none

/-- A reference to an address of the program. -/
def encodeLocal (base : Option UInt32) (line : PlacedLine) (opcode : UInt8) (flags : Flags)
    (target : Int) : Except AssemblyError Instruction :=
  match baseDistance? base target with
  | some distance => .ok (.relative opcode { flags with b := true } distance)
  | none =>
    let next := line.address + 3
    let distance := target - next
    if -2048 ≤ distance ∧ distance ≤ 2047 then
      .ok (.relative opcode { flags with p := true } (distance % 4096).toNat)
    else
      .error (.displacementRange target next)

/-- The instruction for a memory reference. -/
def encodeReference (placement : Placement) (base : Option UInt32) (line : PlacedLine)
    (opcode : UInt8) (extended : Bool) (text : String) :
    Except AssemblyError (Instruction × Option Relocation) := do
  let operand ← MemoryOperand.parse text
  let flags := operandFlags operand
  let value ← placement.targetValue operand.target line.address
  if extended then
    placement.encodeExtended line opcode flags text value
  else
    match value.external with
    | some symbol => placement.encodeImport line opcode flags symbol value.constant
    | none =>
      if value.relative = 0 then
        return (← encodeConstant opcode flags value.constant, none)
      else if value.relative = 1 then
        return (← encodeLocal base line opcode flags value.constant, none)
      else
        .error (.badExpression text)

/-- The instruction of an operation. A reference without an operand has the simple form. -/
def encodeOperation (placement : Placement) (base : Option UInt32) (line : PlacedLine)
    (found : Operation) (extended : Bool) :
    Except AssemblyError (Instruction × Option Relocation) :=
  match found.format with
  | .one => .ok (.plain found.opcode, none)
  | .two => do
    let text ← line.getOperand
    let halves ← HalfBytes.parse found.operand text
    return (.registers found.opcode halves.first halves.second, none)
  | .three =>
    match line.operand with
    | none => .ok (.simple found.opcode false 0, none)
    | some text => placement.encodeReference base line found.opcode extended text

/-- The bytes of a `WORD` line. -/
def encodeWord (placement : Placement) (line : PlacedLine) :
    Except AssemblyError EncodedLine := do
  let text ← line.getOperand
  let value ← placement.eval text line.address
  let field ← placement.addressField text value
  if -0x800000 ≤ field.value ∧ field.value ≤ 0xFFFFFF then
    return ⟨Bytes.ofNat 3 (field.value % 0x1000000).toNat,
      field.symbol.map (Relocation.word (placement.offset line))⟩
  else
    .error (.valueRange field.value 24)

/-- The encoding of a line under a base address. -/
def encodeLine (placement : Placement) (base : Option UInt32) (line : PlacedLine) :
    Except AssemblyError EncodedLine :=
  match line.command with
  | .operation found extended => do
    let (instruction, record) ← placement.encodeOperation base line found extended
    return ⟨instruction.encode, record⟩
  | .directive .BYTE => do
    let text ← line.getOperand
    return ⟨← readBytes text.toList, none⟩
  | .directive .WORD => placement.encodeWord line
  | .directive _ => .ok {}

/-- The value of an operand that must be a constant or an address of the program, in 32 bits. -/
def localAddress (placement : Placement) (text : String) (here : Nat) :
    Except AssemblyError UInt32 := do
  let value ← placement.eval text here
  if value.isLocal then return UInt32.ofInt value.constant else .error (.badExpression text)

/-- The base address in force after a line. -/
def nextBase (placement : Placement) (base : Option UInt32) (line : PlacedLine) :
    Except AssemblyError (Option UInt32) :=
  match line.command with
  | .directive .BASE => do
    let text ← line.getOperand
    return some (← placement.localAddress text line.address)
  | .directive .NOBASE => .ok none
  | _ => .ok base

/-- The entry of the program after a line; the operand of `END` sets it. -/
def nextEntry (placement : Placement) (entry : UInt32) (line : PlacedLine) :
    Except AssemblyError UInt32 :=
  match line.command, line.operand with
  | .directive .END, some text => placement.localAddress text line.address
  | _, _ => .ok entry

/-- The code with the bytes of a line at its offset. -/
def writeLine (placement : Placement) (code : Array UInt8) (line : PlacedLine)
    (bytes : List UInt8) : Except AssemblyError (Array UInt8) :=
  let offset := placement.offset line
  if bytes.isEmpty then .ok code
  else if code.size < offset + bytes.length then .error (.outsideProgram offset code.size)
  else .ok (Bytes.write code offset bytes)

end Placement

/-- What the lines encoded so far have come to. -/
structure Emission where
  base : Option UInt32 := none
  entry : UInt32
  code : Array UInt8
  relocations : Array Relocation := #[]

namespace Emission

/-- The emission after one more line. -/
def emit (placement : Placement) (emission : Emission) (line : PlacedLine) :
    Except AssemblyError Emission := do
  let encoded ← placement.encodeLine emission.base line
  let base ← placement.nextBase emission.base line
  let entry ← placement.nextEntry emission.entry line
  let relocations := match encoded.record with
    | some record => emission.relocations.push record
    | none => emission.relocations
  let code ← placement.writeLine emission.code line encoded.bytes
  return { base, entry, code, relocations }

/-- The emission after the lines of a list. -/
def emitAll (placement : Placement) (emission : Emission) :
    List PlacedLine → Except Diagnostic Emission
  | [] => .ok emission
  | line :: rest =>
    match emission.emit placement line with
    | .error error => .error ⟨line.line, error⟩
    | .ok emission => emitAll placement emission rest

end Emission

namespace Placement

/-- The object module of a placement. -/
def toObject (placement : Placement) : Except Diagnostic Object :=
  let start := UInt32.ofNat placement.start
  let empty : Emission := { entry := start, code := Array.replicate placement.length 0 }
  match empty.emitAll placement placement.lines with
  | .error diagnostic => .error diagnostic
  | .ok emission =>
    .ok
      { name := placement.name
        start
        entry := emission.entry
        code := emission.code
        symbols := placement.symbols
        imports := placement.imports
        relocations := emission.relocations.toList
        fullyRelocated := false
        source := some placement.source }

end Placement

/-- The placement and the object module of a source. -/
def assemble (source : String) : Except Diagnostic (Placement × Object) := do
  let placement ← Placement.ofSource source
  let object ← placement.toObject
  return (placement, object)

end Sicxe
