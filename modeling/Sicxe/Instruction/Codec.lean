import Sicxe.Instruction.Basic
import Sicxe.Text.Hex

/-!
# The encoding of instructions

`Instruction.encode` packs an instruction into its bytes, cutting a field down to its room, and
`Instruction.decode` reads the instruction at the start of a byte string.
-/

namespace Sicxe.Instruction

/-- The bytes of an instruction. -/
def encode : Instruction → List UInt8
  | plain opcode => [opcode]
  | registers opcode first second => [opcode, UInt8.ofNat (16 * (first % 16) + second % 16)]
  | relative opcode flags displacement =>
    [opcode ||| UInt8.ofNat flags.low,
      UInt8.ofNat (16 * flags.high + displacement / 256 % 16),
      UInt8.ofNat (displacement % 256)]
  | extended opcode flags address =>
    [opcode ||| UInt8.ofNat flags.low,
      UInt8.ofNat (16 * flags.high + address / 65536 % 16),
      UInt8.ofNat (address / 256 % 256),
      UInt8.ofNat (address % 256)]
  | simple opcode indexed address =>
    [opcode,
      UInt8.ofNat (128 * indexed.toNat + address / 256 % 128),
      UInt8.ofNat (address % 256)]

/-- **An encoded instruction has the length of the instruction.** -/
theorem length_encode (instruction : Instruction) :
    instruction.encode.length = instruction.length := by
  cases instruction <;> rfl

/-- Why bytes are no instruction. -/
inductive DecodeError where
  /-- The first byte names no operation. -/
  | unknownOpcode (byte : UInt8)
  /-- There are fewer bytes than the instruction needs. -/
  | truncated (needed : Nat)
  deriving DecidableEq, Repr

/-- The text of the error. -/
def DecodeError.message : DecodeError → String
  | unknownOpcode byte => "Unknown opcode byte 0x" ++ Hex.text 2 byte.toNat
  | truncated needed => "Instruction needs " ++ toString needed ++ " bytes"

/-- The memory reference whose first byte is `first`. Without the flags `n` and `i` it is in the
simple form; otherwise `e` tells the extended form from the relative one. -/
def decodeReference (opcode first : UInt8) : List UInt8 → Except DecodeError Instruction
  | second :: third :: rest =>
    if first &&& 0x03 = 0 then
      .ok (simple opcode (second.toNat / 128 == 1) (256 * (second.toNat % 128) + third.toNat))
    else
      let flags := Flags.ofBytes first second
      if flags.e then
        match rest with
        | fourth :: _ =>
          .ok (extended opcode flags
            (65536 * (second.toNat % 16) + 256 * third.toNat + fourth.toNat))
        | [] => .error (.truncated 4)
      else
        .ok (relative opcode flags (256 * (second.toNat % 16) + third.toNat))
  | _ => .error (.truncated 3)

/-- The instruction at the start of a byte string; the bytes after it are ignored. -/
def decode : List UInt8 → Except DecodeError Instruction
  | [] => .error (.truncated 1)
  | first :: rest =>
    let opcode := first &&& 0xFC
    match Operation.ofOpcode? opcode with
    | none => .error (.unknownOpcode first)
    | some operation =>
      match operation.format, rest with
      | .one, _ => .ok (plain opcode)
      | .two, second :: _ => .ok (registers opcode (second.toNat / 16) (second.toNat % 16))
      | .two, [] => .error (.truncated 2)
      | .three, _ => decodeReference opcode first rest

end Sicxe.Instruction
