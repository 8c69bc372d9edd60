import Sicxe.Operation

/-!
# Instructions

One machine instruction in any of its five encodings. The fields hold what is written into the
instruction; a field may exceed the room that its encoding has for it.
-/

namespace Sicxe

/-- The addressing flags of a relative or extended instruction. -/
structure Flags where
  n : Bool
  i : Bool
  x : Bool := false
  b : Bool := false
  p : Bool := false
  e : Bool := false
  deriving DecidableEq, Repr

/-- How an instruction uses its address. -/
inductive Addressing where
  /-- The address is where the operand is. -/
  | simple
  /-- The address is the operand. -/
  | immediate
  /-- The address is where the address of the operand is. -/
  | indirect
  deriving DecidableEq, Repr

namespace Flags

/-- The addressing that the flags `n` and `i` ask for. -/
def addressing (flags : Flags) : Addressing :=
  match flags.n, flags.i with
  | false, true => .immediate
  | true, false => .indirect
  | _, _ => .simple

/-- The flags `n` and `i` as the low bits of the first byte. -/
def low (flags : Flags) : Nat :=
  2 * flags.n.toNat + flags.i.toNat

/-- The flags `x`, `b`, `p` and `e` as the high half of the second byte. -/
def high (flags : Flags) : Nat :=
  8 * flags.x.toNat + 4 * flags.b.toNat + 2 * flags.p.toNat + flags.e.toNat

/-- The flags that the first two bytes of an instruction hold. -/
def ofBytes (first second : UInt8) : Flags where
  n := first.toNat / 2 % 2 == 1
  i := first.toNat % 2 == 1
  x := second.toNat / 128 % 2 == 1
  b := second.toNat / 64 % 2 == 1
  p := second.toNat / 32 % 2 == 1
  e := second.toNat / 16 % 2 == 1

end Flags

/-- A machine instruction. -/
inductive Instruction where
  /-- One byte. -/
  | plain (opcode : UInt8)
  /-- Two bytes, the second holding two half bytes. -/
  | registers (opcode : UInt8) (first second : Nat)
  /-- Three bytes with a displacement of 12 bits. -/
  | relative (opcode : UInt8) (flags : Flags) (displacement : Nat)
  /-- Four bytes with an address of 20 bits. -/
  | extended (opcode : UInt8) (flags : Flags) (address : Nat)
  /-- Three bytes with an address of 15 bits, for machines without addressing flags. -/
  | simple (opcode : UInt8) (indexed : Bool) (address : Nat)
  deriving DecidableEq, Repr

namespace Instruction

/-- The opcode of an instruction. -/
def opcode : Instruction → UInt8
  | plain opcode | registers opcode .. | relative opcode .. | extended opcode ..
  | simple opcode .. => opcode

/-- The operation of an instruction, none if its opcode names no operation. -/
def operation? (instruction : Instruction) : Option Operation :=
  Operation.ofOpcode? instruction.opcode

/-- The number of bytes of an instruction. -/
def length : Instruction → Nat
  | plain .. => 1
  | registers .. => 2
  | relative .. | simple .. => 3
  | extended .. => 4

/-- Whether an instruction is one that its encoding can hold: the opcode names an operation of
the encoding's format, every field fits its room, and a reference with addressing flags has `n`
or `i` set and says by `e` whether it is extended. -/
def WellFormed (instruction : Instruction) : Prop :=
  ∃ operation ∈ Operation.table, operation.opcode = instruction.opcode ∧
    match instruction with
    | plain _ => operation.format = .one
    | registers _ first second => operation.format = .two ∧ first < 16 ∧ second < 16
    | relative _ flags displacement =>
      operation.format = .three ∧ flags.e = false ∧ (flags.n || flags.i) ∧ displacement < 0x1000
    | extended _ flags address =>
      operation.format = .three ∧ flags.e = true ∧ (flags.n || flags.i) ∧ address < 0x100000
    | simple _ _ address => operation.format = .three ∧ address < 0x8000

end Instruction

end Sicxe
