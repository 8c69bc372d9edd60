import Sicxe.Instruction.Codec

/-!
# Decoding what was encoded

`Instruction.decode_encode` reads a well-formed instruction back from its bytes, whatever follows
them. The flags `n` and `i` are the low bits of the first byte (`decode_first`), and the other four
are the high half of the second one (`ofBytes_encoded`).
-/

namespace Sicxe

/-- The first byte of a memory reference. -/
def Instruction.firstByte (opcode : UInt8) (flags : Flags) : UInt8 :=
  opcode ||| UInt8.ofNat flags.low

/-- **An opcode and the flags in its low bits are told apart again.** -/
theorem Operation.firstByte_split : ∀ operation ∈ table, ∀ n i : Bool,
    (operation.opcode ||| UInt8.ofNat (2 * n.toNat + i.toNat)) &&& 0xFC = operation.opcode ∧
      ((operation.opcode ||| UInt8.ofNat (2 * n.toNat + i.toNat)) &&& 0x03 = 0 ↔
        (n || i) = false) ∧
      ((operation.opcode ||| UInt8.ofNat (2 * n.toNat + i.toNat)).toNat / 2 % 2 == 1) = n ∧
      ((operation.opcode ||| UInt8.ofNat (2 * n.toNat + i.toNat)).toNat % 2 == 1) = i := by
  decide +kernel

namespace Instruction

variable {operation : Operation} {flags : Flags}

/-- The addressing flags of an instruction that has some. -/
def flags? : Instruction → Option Flags
  | relative _ flags _ | extended _ flags _ => some flags
  | _ => none

theorem toNat_ofNat_of_lt {number : Nat} (small : number < 256) :
    (UInt8.ofNat number).toNat = number := by
  rw [UInt8.toNat_ofNat']
  omega

theorem high_lt (flags : Flags) : flags.high < 16 := by
  have x := flags.x.toNat_le
  have b := flags.b.toNat_le
  have p := flags.p.toNat_le
  have e := flags.e.toNat_le
  unfold Flags.high
  omega

/-- **The first two bytes of a memory reference hold its flags.** -/
theorem ofBytes_encoded (flags : Flags) (member : operation ∈ Operation.table) {nibble : Nat}
    (small : nibble < 16) :
    Flags.ofBytes (firstByte operation.opcode flags) (UInt8.ofNat (16 * flags.high + nibble)) =
      flags := by
  have bound := high_lt flags
  obtain ⟨n, i, x, b, p, e⟩ := flags
  obtain ⟨_, _, isN, isI⟩ := Operation.firstByte_split operation member n i
  unfold Flags.ofBytes
  rw [toNat_ofNat_of_lt (by omega)]
  simp only [Flags.mk.injEq]
  refine ⟨isN, isI, ?_, ?_, ?_, ?_⟩ <;>
    cases x <;> cases b <;> cases p <;> cases e <;>
    simp only [Flags.high, Bool.toNat_true, Bool.toNat_false, beq_iff_eq, beq_eq_false_iff_ne] <;>
    omega

theorem decode_relative (member : operation ∈ Operation.table) (isThree : operation.format = .three)
    (plain : flags.e = false) (marked : (flags.n || flags.i) = true) {displacement : Nat}
    (small : displacement < 0x1000) (rest : List UInt8) :
    decode ((relative operation.opcode flags displacement).encode ++ rest) =
      .ok (relative operation.opcode flags displacement) := by
  obtain ⟨opcode, low, _⟩ := Operation.firstByte_split operation member flags.n flags.i
  have lowSet : ¬ firstByte operation.opcode flags &&& 0x03 = 0 := by
    intro zero
    rw [low.mp zero] at marked
    cases marked
  have flagsRead := ofBytes_encoded flags member
    (show displacement / 256 % 16 < 16 by omega)
  have high := high_lt flags
  have opcode : firstByte operation.opcode flags &&& 0xFC = operation.opcode := opcode
  show decode (firstByte operation.opcode flags ::
    UInt8.ofNat (16 * flags.high + displacement / 256 % 16) ::
    UInt8.ofNat (displacement % 256) :: rest) = _
  simp only [decode, opcode, Operation.ofOpcode?_opcode operation member, isThree, decodeReference,
    lowSet, if_false, flagsRead, plain, Bool.false_eq_true]
  rw [toNat_ofNat_of_lt (by omega), toNat_ofNat_of_lt (by omega)]
  congr 2
  omega

theorem decode_extended (member : operation ∈ Operation.table)
    (isThree : operation.format = .three) (isExtended : flags.e = true)
    (marked : (flags.n || flags.i) = true) {address : Nat} (small : address < 0x100000)
    (rest : List UInt8) :
    decode ((extended operation.opcode flags address).encode ++ rest) =
      .ok (extended operation.opcode flags address) := by
  obtain ⟨opcode, low, _⟩ := Operation.firstByte_split operation member flags.n flags.i
  have lowSet : ¬ firstByte operation.opcode flags &&& 0x03 = 0 := by
    intro zero
    rw [low.mp zero] at marked
    cases marked
  have flagsRead := ofBytes_encoded flags member
    (show address / 65536 % 16 < 16 by omega)
  have high := high_lt flags
  have opcode : firstByte operation.opcode flags &&& 0xFC = operation.opcode := opcode
  show decode (firstByte operation.opcode flags ::
    UInt8.ofNat (16 * flags.high + address / 65536 % 16) ::
    UInt8.ofNat (address / 256 % 256) :: UInt8.ofNat (address % 256) :: rest) = _
  simp only [decode, opcode, Operation.ofOpcode?_opcode operation member, isThree, decodeReference,
    lowSet, if_false, flagsRead, isExtended, if_true]
  rw [toNat_ofNat_of_lt (by omega), toNat_ofNat_of_lt (by omega), toNat_ofNat_of_lt (by omega)]
  congr 2
  omega

/-- An opcode without flags stands for itself. -/
theorem opcode_alone (member : operation ∈ Operation.table) :
    operation.opcode &&& 0xFC = operation.opcode ∧ operation.opcode &&& 0x03 = 0 := by
  obtain ⟨opcode, low, _⟩ := Operation.firstByte_split operation member false false
  have alone : operation.opcode ||| UInt8.ofNat (2 * false.toNat + false.toNat) =
      operation.opcode := UInt8.or_zero
  rw [alone] at opcode low
  exact ⟨opcode, low.mpr rfl⟩

theorem decode_simple (member : operation ∈ Operation.table) (isThree : operation.format = .three)
    {address : Nat} (small : address < 0x8000) (indexed : Bool) (rest : List UInt8) :
    decode ((simple operation.opcode indexed address).encode ++ rest) =
      .ok (simple operation.opcode indexed address) := by
  obtain ⟨opcode, low⟩ := opcode_alone member
  have isIndexed := indexed.toNat_le
  show decode (operation.opcode :: UInt8.ofNat (128 * indexed.toNat + address / 256 % 128) ::
    UInt8.ofNat (address % 256) :: rest) = _
  simp only [decode, opcode, Operation.ofOpcode?_opcode operation member, isThree, decodeReference,
    low, if_true]
  rw [toNat_ofNat_of_lt (by omega), toNat_ofNat_of_lt (by omega)]
  congr 2
  · cases indexed <;> simp only [Bool.toNat_true, Bool.toNat_false, beq_iff_eq,
      beq_eq_false_iff_ne] <;> omega
  · omega

/-- **A well-formed instruction is read back from its bytes.** -/
theorem decode_encode {instruction : Instruction} (wellFormed : instruction.WellFormed)
    (rest : List UInt8) : decode (instruction.encode ++ rest) = .ok instruction := by
  obtain ⟨operation, member, isOpcode, fields⟩ := wellFormed
  obtain ⟨alone, _⟩ := opcode_alone member
  cases instruction with
  | plain opcode =>
    subst isOpcode
    show decode (operation.opcode :: rest) = _
    simp only [decode, alone, Operation.ofOpcode?_opcode operation member, fields]
  | registers opcode first second =>
    subst isOpcode
    obtain ⟨isTwo, firstSmall, secondSmall⟩ := fields
    show decode (operation.opcode :: UInt8.ofNat (16 * (first % 16) + second % 16) :: rest) = _
    simp only [decode, alone, Operation.ofOpcode?_opcode operation member, isTwo]
    rw [toNat_ofNat_of_lt (by omega)]
    congr 2 <;> omega
  | relative opcode flags displacement =>
    subst isOpcode
    obtain ⟨isThree, plain, marked, small⟩ := fields
    exact decode_relative member isThree plain marked small rest
  | extended opcode flags address =>
    subst isOpcode
    obtain ⟨isThree, isExtended, marked, small⟩ := fields
    exact decode_extended member isThree isExtended marked small rest
  | simple opcode indexed address =>
    subst isOpcode
    exact decode_simple member fields.1 fields.2 indexed rest

end Instruction

end Sicxe
