import Sicxe.Instruction.Codec
import Sicxe.Machine.Memory
import Sicxe.Machine.Registers

/-!
# The execution of one instruction

`Instruction.execute` works out the `Effect` of an instruction from the memory and the registers,
without changing either: the registers afterwards, the bytes to be stored, and whether the machine
halts. Everything that can fail fails here, so an instruction takes place as a whole or not at all.

The address of a memory reference is worked out in two steps. `Reference.ofInstruction?` gives the
address before indexing, and `Reference.locate` adds the index and follows the pointer of indirect
addressing.
-/

namespace Sicxe

/-- The return address that stops the machine. -/
def haltAddress : Nat := 0xFFFFFF

/-- A memory reference with its address before indexing. -/
structure Reference where
  addressing : Addressing
  indexed : Bool
  address : Int
  deriving DecidableEq, Repr

/-- Where an operand is. -/
inductive Place where
  | immediate (value : Int)
  | address (location : Nat)
  deriving DecidableEq, Repr

namespace Reference

/-- The address in a relative reference: from the base register, from the next instruction, or
absolute. -/
def relativeAddress (registers : Registers) (next : Nat) (flags : Flags) (displacement : Nat) :
    Int :=
  if flags.b then registers.b + displacement
  else if flags.p then next + signExtend 12 displacement
  else displacement

/-- The reference that an instruction makes, when the instruction after it is at `next`. -/
def ofInstruction? (registers : Registers) (next : Nat) : Instruction → Option Reference
  | .relative _ flags displacement =>
    some ⟨flags.addressing, flags.x, relativeAddress registers next flags displacement⟩
  | .extended _ flags address => some ⟨flags.addressing, flags.x, address⟩
  | .simple _ indexed address => some ⟨.simple, indexed, address⟩
  | .plain _ | .registers .. => none

/-- The address of a reference after indexing. -/
def effectiveAddress (reference : Reference) (registers : Registers) : Nat :=
  Word.unsigned (reference.address + if reference.indexed then registers.x else 0)

/-- The place of the operand that a reference is to. -/
def locate (reference : Reference) (memory : Memory) (registers : Registers) :
    Except MachineError Place :=
  let address := reference.effectiveAddress registers
  match reference.addressing with
  | .immediate => .ok (.immediate (Word.signed address))
  | .indirect => (memory.loadWord address).map fun pointer => .address (Word.unsigned pointer)
  | .simple => .ok (.address address)

end Reference

namespace Place

/-- The word at a place. -/
def readWord (memory : Memory) : Place → Except MachineError Int
  | .immediate value => .ok value
  | .address location => memory.loadWord location

/-- The long word at a place; an immediate value is extended to it. -/
def readLong (memory : Memory) : Place → Except MachineError Int
  | .immediate value => .ok value
  | .address location => memory.loadLong location

/-- The byte at a place, as a number. -/
def readByte (memory : Memory) : Place → Except MachineError Nat
  | .immediate value => .ok (value % 256).toNat
  | .address location => (memory.readByte location).map UInt8.toNat

/-- The address that a jump to a place goes to. -/
def target : Place → Nat
  | .immediate value => Word.unsigned value
  | .address location => location

end Place

/-- What an instruction does. -/
structure Effect where
  registers : Registers
  /-- The bytes to be stored and their address, which is inside the memory. -/
  store : Option (Nat × List UInt8) := none
  halts : Bool := false
  deriving DecidableEq, Repr

namespace Instruction

/-- What an instruction is executed in. The registers already point to the next instruction. -/
structure Context where
  memory : Memory
  registers : Registers
  /-- The address of the instruction. -/
  pc : Nat
  /-- The address of the instruction after it. -/
  next : Nat

/-- The place of the operand of an instruction. -/
def operand (instruction : Instruction) (context : Context) : Except MachineError Place :=
  match Reference.ofInstruction? context.registers context.next instruction with
  | some reference => reference.locate context.memory context.registers
  | none => .error (.invalidOpcode instruction.opcode context.pc)

/-- The address that an instruction stores to. -/
def storeAddress (instruction : Instruction) (context : Context) : Except MachineError Nat := do
  match ← instruction.operand context with
  | .address address => return address
  | .immediate _ => .error (.storeImmediate context.pc)

/-- The two half bytes of a two-byte instruction. -/
def halfBytes (instruction : Instruction) (context : Context) : Except MachineError (Nat × Nat) :=
  match instruction with
  | registers _ first second => .ok (first, second)
  | _ => .error (.invalidOpcode instruction.opcode context.pc)

/-- The two registers of a two-byte instruction. Both numbers must name one, also where only the
first is used. -/
def registerPair (instruction : Instruction) (context : Context) :
    Except MachineError (Register × Register) := do
  let (first, second) ← instruction.halfBytes context
  let first ← Registers.byNumber first
  let second ← Registers.byNumber second
  return (first, second)

/-- The effect of storing bytes at an address. -/
def store (context : Context) (address : Nat) (bytes : List UInt8) :
    Except MachineError Effect := do
  context.memory.check address bytes.length
  return { registers := context.registers, store := some (address, bytes) }

/-- The registers with the result of an operation in one of them; arithmetic leaves a comparison
of the result with zero in the condition code. -/
def setResult (registers : Registers) (register : Register) (operation : Arithmetic)
    (result : Int) : Registers :=
  let registers := registers.set register result
  if operation.setsCode then registers.setCode (.compare result 0) else registers

/-- Whether a jump is taken under a condition code. -/
def taken : JumpCondition → ConditionCode → Bool
  | .always, _ => true
  | .equal, code => code == .equal
  | .greater, code => code == .greater
  | .less, code => code == .less

/-- The registers with X counted up and compared with a limit. -/
def countIndex (registers : Registers) (limit : Int) : Registers :=
  let index := Word.signed (registers.x + 1)
  (registers.set .X index).setCode (.compare index limit)

/-- The effect of a load. -/
def executeLoad (instruction : Instruction) (context : Context) (register : Register) :
    Except MachineError Effect := do
  let place ← instruction.operand context
  let value ← match register.width with
    | .word => place.readWord context.memory
    | .long => place.readLong context.memory
  return { registers := context.registers.set register value }

/-- The effect of a store. -/
def executeStore (instruction : Instruction) (context : Context) (register : Register) :
    Except MachineError Effect := do
  let address ← instruction.storeAddress context
  let value := context.registers.get register
  store context address <| match register.width with
    | .word => Memory.wordBytes value
    | .long => Memory.longBytes value

/-- The effect of moving the value of one register to another of the same width. -/
def executeMove (instruction : Instruction) (context : Context) : Except MachineError Effect := do
  let (source, target) ← instruction.registerPair context
  if target.width = source.width then
    return { registers := context.registers.set target (context.registers.get source) }
  else
    .error (.registerWidth target source.width)

/-- The effect of a shift; the second half byte is the number of places less one. -/
def executeShift (instruction : Instruction) (context : Context) (shift : Int → Nat → Int) :
    Except MachineError Effect := do
  let (number, places) ← instruction.halfBytes context
  let register ← Registers.byNumber number
  let value ← context.registers.getWord register
  return { registers := context.registers.set register (shift value (places + 1)) }

/-- The effect of an arithmetic operation on two registers; the second one takes the result. -/
def executeRegisterArithmetic (instruction : Instruction) (context : Context)
    (operation : Arithmetic) : Except MachineError Effect := do
  let (first, second) ← instruction.registerPair context
  let right ← context.registers.getWord first
  let left ← context.registers.getWord second
  match operation.apply left right with
  | some result => return { registers := setResult context.registers second operation result }
  | none => .error (.divisionByZero context.pc)

/-- The effect of a jump. A jump to itself would never end, so it halts the machine. -/
def executeJump (instruction : Instruction) (context : Context) (condition : JumpCondition) :
    Except MachineError Effect := do
  let target := (← instruction.operand context).target
  if taken condition context.registers.code then
    return { registers := context.registers.setCounter target, halts := target == context.pc }
  else
    return { registers := context.registers }

/-- The effect of an instruction whose operation behaves in a certain way. -/
def perform (instruction : Instruction) (operation : Operation) (context : Context) :
    Except MachineError Effect :=
  let registers := context.registers
  match operation.behavior with
  | .load register => instruction.executeLoad context register
  | .loadByte => do
    let byte ← (← instruction.operand context).readByte context.memory
    return { registers := registers.set .A (registers.a - registers.a % 256 + byte) }
  | .store register => instruction.executeStore context register
  | .storeByte => do
    let address ← instruction.storeAddress context
    store context address [UInt8.ofNat (registers.a % 256).toNat]
  | .arithmetic operation => do
    let right ← (← instruction.operand context).readWord context.memory
    match operation.apply registers.a right with
    | some result => return { registers := setResult registers .A operation result }
    | none => .error (.divisionByZero context.pc)
  | .compare => do
    let right ← (← instruction.operand context).readWord context.memory
    return { registers := registers.setCode (.compare registers.a right) }
  | .countIndex => do
    let limit ← (← instruction.operand context).readWord context.memory
    return { registers := countIndex registers limit }
  | .jump condition => instruction.executeJump context condition
  | .call => do
    let target := (← instruction.operand context).target
    return { registers := (registers.set .L context.next).setCounter target }
  | .returnToCaller =>
    let target := Word.unsigned registers.l
    .ok { registers := registers.setCounter target, halts := target == haltAddress }
  | .registerArithmetic operation => instruction.executeRegisterArithmetic context operation
  | .registerCompare => do
    let (first, second) ← instruction.registerPair context
    let left ← registers.getWord first
    let right ← registers.getWord second
    return { registers := registers.setCode (.compare left right) }
  | .clear => do
    let (register, _) ← instruction.registerPair context
    return { registers := registers.set register 0 }
  | .move => instruction.executeMove context
  | .shiftLeft => instruction.executeShift context Word.rotateLeft
  | .shiftRight => instruction.executeShift context Word.shiftRight
  | .registerCountIndex => do
    let (register, _) ← instruction.registerPair context
    let limit ← registers.getWord register
    return { registers := countIndex registers limit }
  | .unsupported => .error (.unsupported operation.mnemonic context.pc)

/-- The instruction at an address. -/
def fetch (memory : Memory) (pc : Nat) : Except MachineError Instruction := do
  let bytes ← memory.window pc
  match decode bytes with
  | .ok instruction => return instruction
  | .error (.unknownOpcode byte) => .error (.invalidOpcode byte pc)
  | .error (.truncated needed) => .error (.outOfBounds pc needed memory.size)

/-- The effect of the instruction at the address `pc`. -/
def execute (instruction : Instruction) (memory : Memory) (registers : Registers) (pc : Nat) :
    Except MachineError Effect :=
  match instruction.operation? with
  | none => .error (.invalidOpcode instruction.opcode pc)
  | some operation =>
    let next := Word.unsigned (pc + instruction.length : Nat)
    instruction.perform operation ⟨memory, registers.setCounter next, pc, next⟩

end Instruction

end Sicxe
