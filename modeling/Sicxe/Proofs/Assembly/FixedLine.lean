import Sicxe.Proofs.Assembly.Module
import Sicxe.Proofs.Machine.Fetch

/-!
# Lines after the fix-ups

What the bytes of a line of an assembled module are once the records of the module were resolved.

* `Placement.Assembled.slice_kept`: a line without a record keeps its bytes.
* `Placement.Assembled.slice_resolved`: the record of a line changes the half bytes of its field,
  and nothing else changes in the line.
* `Placement.Assembled.slice_moved`, `Placement.Assembled.slice_displaced`: the instruction that an
  extended reference and a displacement turn into.
-/

namespace Sicxe

open Relocation (FixedBy)

namespace Placement.Assembled

variable {placement : Placement} {object : Object} {before after : List EmittedLine}
variable {line : EmittedLine} {address : String → Option UInt32} {origin : Nat}
variable {fixed : Array UInt8}

/-- **A line without a record keeps its bytes.** -/
theorem slice_kept (assembled : placement.Assembled object (before ++ line :: after))
    (run : FixedBy address origin object.relocations object.code fixed)
    (free : line.encoded.record = none) :
    Bytes.slice fixed (placement.offset line.placed) line.encoded.bytes.length =
      line.encoded.bytes := by
  have fits : line.encoded.bytes.length ≤ line.placed.size :=
    assembled.fits line (List.mem_append_right _ List.mem_cons_self)
  have kept : Bytes.slice fixed (placement.offset line.placed) line.encoded.bytes.length =
      Bytes.slice object.code (placement.offset line.placed) line.encoded.bytes.length := by
    refine Bytes.slice_congr fun index inside => run.kept fun record member covers => ?_
    have own := assembled.line_free member (Nat.le_add_right _ _) (by omega) covers
    rw [free] at own
    cases own
  rw [kept, assembled.slice_at]

/-! ### A field and what stands before it -/

section Resolved

variable {record : Relocation}

/-- The bytes of a line are some leading bytes and the others. -/
theorem slice_lead (assembled : placement.Assembled object (before ++ line :: after))
    {lead others : List UInt8} (isBytes : line.encoded.bytes = lead ++ others) :
    Bytes.slice object.code (placement.offset line.placed) lead.length = lead ∧
      Bytes.slice object.code (placement.offset line.placed + lead.length) others.length =
        others := by
  have bytes := assembled.slice_at
  have length : line.encoded.bytes.length = lead.length + others.length := by
    rw [isBytes, List.length_append]
  have inCode := (assembled.offset_add_size_le (List.mem_append_right _ List.mem_cons_self)).2
  have fits : line.encoded.bytes.length ≤ line.placed.size :=
    assembled.fits line (List.mem_append_right _ List.mem_cons_self)
  rw [length, isBytes, Bytes.slice_add] at bytes
  exact List.append_inj bytes (Bytes.length_slice _ _ _ (by omega))

/-- What stands before the field of a line stays. -/
theorem slice_lead_kept (assembled : placement.Assembled object (before ++ line :: after))
    (run : FixedBy address origin object.relocations object.code fixed)
    (isRecord : line.encoded.record = some record) {count : Nat}
    (behind : record.offset = placement.offset line.placed + count)
    (fits : count ≤ line.placed.size) :
    Bytes.slice fixed (placement.offset line.placed) count =
      Bytes.slice object.code (placement.offset line.placed) count := by
  refine Bytes.slice_congr fun index inside => run.kept fun other isMember covers => ?_
  have own := assembled.line_free isMember (Nat.le_add_right _ _) (by omega) covers
  rw [isRecord] at own
  cases own
  have begins : record.offset ≤ placement.offset line.placed + index := covers.1
  omega

/-- Before the fix-up, the bytes behind the leading ones hold the other bits and the field. -/
theorem raw_line {lead : List UInt8} {high field : Nat}
    (assembled : placement.Assembled object (before ++ line :: after))
    (behind : record.offset = placement.offset line.placed + lead.length)
    (isBytes : line.encoded.bytes =
      lead ++ Bytes.ofNat record.length (high * record.capacity + field))
    (small : field < record.capacity)
    (room : high * record.capacity + record.capacity ≤ valueCount (8 * record.length)) :
    record.raw object.code = high * record.capacity + field := by
  obtain ⟨_, others⟩ := assembled.slice_lead isBytes
  rw [Bytes.length_ofNat, ← behind] at others
  exact Relocation.raw_of_slice others small room

/-- **The field of a line is resolved for its symbol**, and the other bits of the line stay. -/
theorem slice_resolved (lead : List UInt8) (high : Nat) {field : Nat}
    (assembled : placement.Assembled object (before ++ line :: after))
    (run : FixedBy address origin object.relocations object.code fixed)
    (isRecord : line.encoded.record = some record)
    (behind : record.offset = placement.offset line.placed + lead.length)
    (isBytes : line.encoded.bytes =
      lead ++ Bytes.ofNat record.length (high * record.capacity + field))
    (small : field < record.capacity)
    (room : high * record.capacity + record.capacity ≤ valueCount (8 * record.length)) :
    ∃ target value, address record.symbol = some target ∧
      record.resolve field target.toNat origin = .ok value ∧
      Bytes.slice fixed (placement.offset line.placed) (lead.length + record.length) =
        lead ++ Bytes.ofNat record.length (high * record.capacity + value) := by
  have inEmitted : line ∈ before ++ line :: after :=
    List.mem_append_right _ List.mem_cons_self
  have member : record ∈ object.relocations := by
    rw [assembled.relocations]
    exact List.mem_filterMap.mpr ⟨line, inEmitted, isRecord⟩
  have sound := assembled.soundRecords
  obtain ⟨target, value, found, resolved, raw⟩ := run.resolved sound.fits sound.apart _ member
  have fits : line.encoded.bytes.length ≤ line.placed.size := assembled.fits line inEmitted
  have leadFits : lead.length ≤ line.encoded.bytes.length := by
    rw [isBytes, List.length_append]
    exact Nat.le_add_right _ _
  have rawCode := assembled.raw_line behind isBytes small room
  obtain ⟨isHigh, isLow⟩ := record.capacity_split high small
  rw [Relocation.field, rawCode, isLow] at resolved
  rw [rawCode, isHigh] at raw
  refine ⟨target, value, found, resolved, ?_⟩
  -- Afterwards the field holds the same bits and the value.
  have written : Bytes.slice fixed record.offset record.length =
      Bytes.ofNat record.length (high * record.capacity + value) := by
    have bound : record.offset + record.length ≤ fixed.size := by
      rw [run.size_eq]
      exact (sound.inside _ member).1.2.2
    have whole := Bytes.ofNat_value (Bytes.slice fixed record.offset record.length)
    rw [Bytes.length_slice _ _ _ bound] at whole
    rw [← whole, ← raw, Relocation.raw]
  rw [Bytes.slice_add, assembled.slice_lead_kept run isRecord behind (by omega),
    (assembled.slice_lead isBytes).1, ← behind, written]

end Resolved

/-! ### References -/

section References

variable {symbol : String} {opcode : UInt8} {flags : Flags} {field : Nat}

/-- **An extended reference has the address of its symbol added.** -/
theorem slice_moved (assembled : placement.Assembled object (before ++ line :: after))
    (run : FixedBy address origin object.relocations object.code fixed)
    (isRecord : line.encoded.record =
      some (Relocation.address20 (placement.offset line.placed) symbol))
    (small : field < 0x100000)
    (isBytes : line.encoded.bytes = (Instruction.extended opcode flags field).encode) :
    ∃ target, address symbol = some target ∧ field + target.toNat < 0x100000 ∧
      Bytes.slice fixed (placement.offset line.placed) 4 =
        (Instruction.extended opcode flags (field + target.toNat)).encode := by
  have high := Instruction.high_lt flags
  rw [Instruction.encode_extended small] at isBytes
  obtain ⟨target, value, found, resolved, slice⟩ := slice_resolved
    [Instruction.firstByte opcode flags] flags.high assembled run isRecord rfl isBytes small (by
      show flags.high * 0x100000 + 0x100000 ≤ 0x1000000
      omega)
  obtain ⟨room, rfl⟩ := (Relocation.resolve_absolute_iff rfl).mp resolved
  refine ⟨target, found, room, ?_⟩
  rw [Instruction.encode_extended room]
  exact slice

/-- **A displacement becomes the distance from the next instruction to its symbol**, with the addend
that it held. -/
theorem slice_displaced (assembled : placement.Assembled object (before ++ line :: after))
    (run : FixedBy address origin object.relocations object.code fixed)
    (isRecord : line.encoded.record =
      some (Relocation.displacement (placement.offset line.placed) symbol))
    (small : field < 0x1000)
    (isBytes : line.encoded.bytes = (Instruction.relative opcode flags field).encode) :
    ∃ target, ∃ distance : Int, address symbol = some target ∧
      distance = signExtend 12 field + target.toNat -
        (origin + placement.offset line.placed + 3 : Nat) ∧
      -2048 ≤ distance ∧ distance ≤ 2047 ∧
      Bytes.slice fixed (placement.offset line.placed) 3 =
        (Instruction.relative opcode flags (distance % 4096).toNat).encode := by
  have high := Instruction.high_lt flags
  rw [Instruction.encode_relative small] at isBytes
  obtain ⟨target, value, found, resolved, slice⟩ := slice_resolved
    [Instruction.firstByte opcode flags] flags.high assembled run isRecord rfl isBytes small (by
      show flags.high * 0x1000 + 0x1000 ≤ 0x10000
      omega)
  obtain ⟨⟨least, greatest⟩, isValue⟩ := (Relocation.resolve_relative_iff rfl).mp resolved
  refine ⟨target, _, found, rfl, least, greatest, ?_⟩
  rw [Instruction.encode_relative (by omega)]
  rw [isValue] at slice
  exact slice

end References

end Placement.Assembled

end Sicxe
