import Sicxe.Machine.Execution
import Sicxe.Proofs.Bytes
import Sicxe.Proofs.Instruction.Codec
import Sicxe.Proofs.Success

/-!
# Fetching instructions

`Instruction.fetch_of_slice`: where memory holds the bytes of an instruction, the machine finds the
instruction. `Instruction.encode_extended` and `Instruction.encode_relative` give the bytes of a
memory reference as one number behind the first byte, which is the form that a fix-up changes.
-/

namespace Sicxe.Instruction

theorem length_le_four (instruction : Instruction) :
    1 ≤ instruction.length ∧ instruction.length ≤ 4 := by
  cases instruction <;> simp [length]

/-- **Where memory holds the bytes of an instruction, the machine finds it.** -/
theorem fetch_of_slice {memory : Memory} {pc : Nat} {instruction : Instruction}
    (wellFormed : instruction.WellFormed) (inside : pc + instruction.length ≤ memory.size)
    (holds : Bytes.slice memory.bytes pc instruction.length = instruction.encode) :
    fetch memory pc = .ok instruction := by
  obtain ⟨positive, bound⟩ := instruction.length_le_four
  have window : memory.window pc = .ok (instruction.encode ++
      Bytes.slice memory.bytes (pc + instruction.length) (4 - instruction.length)) := by
    rw [Memory.window, if_pos (by omega), ← holds, ← Bytes.slice_add, Nat.add_sub_cancel' bound]
  refine bind_eq_ok_iff.mpr ⟨_, window, ?_⟩
  simp only [decode_encode wellFormed]
  rfl

/-- The bytes of an extended instruction: its first byte, then flags and address as one number. -/
theorem encode_extended {opcode : UInt8} {flags : Flags} {address : Nat}
    (small : address < 0x100000) :
    (extended opcode flags address).encode =
      firstByte opcode flags :: Bytes.ofNat 3 (flags.high * 0x100000 + address) := by
  have high := high_lt flags
  have second : (flags.high * 0x100000 + address) / 256 / 256 % 256 =
      16 * flags.high + address / 65536 % 16 := by omega
  have third : (flags.high * 0x100000 + address) / 256 % 256 = address / 256 % 256 := by omega
  have fourth : (flags.high * 0x100000 + address) % 256 = address % 256 := by omega
  simp only [Bytes.ofNat, second, third, fourth, List.nil_append, List.cons_append]
  rfl

/-- The bytes of a relative instruction: its first byte, then flags and displacement as one
number. -/
theorem encode_relative {opcode : UInt8} {flags : Flags} {displacement : Nat}
    (small : displacement < 0x1000) :
    (relative opcode flags displacement).encode =
      firstByte opcode flags :: Bytes.ofNat 2 (flags.high * 0x1000 + displacement) := by
  have high := high_lt flags
  have second : (flags.high * 0x1000 + displacement) / 256 % 256 =
      16 * flags.high + displacement / 256 % 16 := by omega
  have third : (flags.high * 0x1000 + displacement) % 256 = displacement % 256 := by omega
  simp only [Bytes.ofNat, second, third, List.nil_append, List.cons_append]
  rfl

end Sicxe.Instruction
