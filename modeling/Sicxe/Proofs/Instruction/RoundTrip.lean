import Sicxe.Proofs.Instruction.Codec

/-!
# Decoding and encoding again

`Instruction.Spells` tells which bytes stand for which instruction, with one case for each encoding.
The decoder finds exactly the instruction that the bytes at the front spell
(`Instruction.decode_eq_ok_iff`), and everything about decoded instructions follows from the five
cases:

* `Spells.wellFormed`: what is spelled is well-formed, its flags and fields being cut out of bytes.
* `Spells.encode_eq`: encoding it again gives the bytes, but for the two low bits of the first one
  where the encoding has no flags there.

`Instruction.encode_decode` puts both directions together.
-/

namespace Sicxe

/-! ### Bytes as opcode and flags -/

/-- **A byte is its upper six bits and its lower two.** -/
theorem byte_split_low (byte : UInt8) :
    (byte &&& 0xFC) ||| UInt8.ofNat (byte.toNat % 4) = byte ∧
      (byte &&& 0x03 = 0 ↔ byte.toNat % 4 = 0) := by
  have listed : ∀ number < 256, (UInt8.ofNat number &&& 0xFC) |||
      UInt8.ofNat ((UInt8.ofNat number).toNat % 4) = UInt8.ofNat number ∧
      (UInt8.ofNat number &&& 0x03 = 0 ↔ (UInt8.ofNat number).toNat % 4 = 0) := by
    decide +kernel
  have holds := listed byte.toNat byte.toNat_lt
  rw [UInt8.ofNat_toNat] at holds
  exact holds

theorem toNat_mod_two (number : Nat) : (number % 2 == 1).toNat = number % 2 := by
  rcases Nat.mod_two_eq_zero_or_one number with even | odd
  · rw [even]
    rfl
  · rw [odd]
    rfl

namespace Flags

variable (first second : UInt8)

theorem low_ofBytes : (ofBytes first second).low = first.toNat % 4 := by
  rw [low, ofBytes, toNat_mod_two, toNat_mod_two]
  omega

theorem high_ofBytes : (ofBytes first second).high = second.toNat / 16 := by
  have bound := second.toNat_lt
  rw [high, ofBytes, toNat_mod_two, toNat_mod_two, toNat_mod_two, toNat_mod_two]
  omega

/-- The low bits of the first byte tell whether there are addressing flags. -/
theorem marked_ofBytes :
    ((ofBytes first second).n || (ofBytes first second).i) = true ↔ ¬ first &&& 0x03 = 0 := by
  rw [(byte_split_low first).2, ← low_ofBytes first second]
  generalize ofBytes first second = flags
  obtain ⟨n, i⟩ := flags
  cases n <;> cases i <;> simp [low]

end Flags

namespace Instruction

open Operation

/-! ### What bytes spell -/

/-- The bytes are those of an instruction. -/
inductive Spells : List UInt8 → Instruction → Prop
  | plain {first : UInt8} {operation : Operation}
      (found : ofOpcode? (first &&& 0xFC) = some operation) (isOne : operation.format = .one) :
      Spells [first] (.plain (first &&& 0xFC))
  | registers {first second : UInt8} {operation : Operation}
      (found : ofOpcode? (first &&& 0xFC) = some operation) (isTwo : operation.format = .two) :
      Spells [first, second]
        (.registers (first &&& 0xFC) (second.toNat / 16) (second.toNat % 16))
  | simple {first second third : UInt8} {operation : Operation}
      (found : ofOpcode? (first &&& 0xFC) = some operation) (isThree : operation.format = .three)
      (unmarked : first &&& 0x03 = 0) :
      Spells [first, second, third]
        (.simple (first &&& 0xFC) (second.toNat / 128 == 1)
          (256 * (second.toNat % 128) + third.toNat))
  | relative {first second third : UInt8} {operation : Operation}
      (found : ofOpcode? (first &&& 0xFC) = some operation) (isThree : operation.format = .three)
      (marked : ¬ first &&& 0x03 = 0) (short : (Flags.ofBytes first second).e = false) :
      Spells [first, second, third]
        (.relative (first &&& 0xFC) (Flags.ofBytes first second)
          (256 * (second.toNat % 16) + third.toNat))
  | extended {first second third fourth : UInt8} {operation : Operation}
      (found : ofOpcode? (first &&& 0xFC) = some operation) (isThree : operation.format = .three)
      (marked : ¬ first &&& 0x03 = 0) (long : (Flags.ofBytes first second).e = true) :
      Spells [first, second, third, fourth]
        (.extended (first &&& 0xFC) (Flags.ofBytes first second)
          (65536 * (second.toNat % 16) + 256 * third.toNat + fourth.toNat))

variable {bytes lead : List UInt8} {instruction : Instruction}

/-- Bytes that spell an instruction are decoded to it, whatever follows them. -/
theorem Spells.decode_append (spells : Spells lead instruction) (rest : List UInt8) :
    decode (lead ++ rest) = .ok instruction := by
  cases spells with
  | plain found isOne => simp [decode, found, isOne]
  | registers found isTwo => simp [decode, found, isTwo]
  | simple found isThree unmarked => simp [decode, found, isThree, decodeReference, unmarked]
  | relative found isThree marked short =>
    simp [decode, found, isThree, decodeReference, marked, short]
  | extended found isThree marked long =>
    simp [decode, found, isThree, decodeReference, marked, long]

/-- A memory reference is decoded from the bytes that spell it. -/
theorem spells_of_decodeReference {operation : Operation} {first : UInt8} {behind : List UInt8}
    (found : ofOpcode? (first &&& 0xFC) = some operation) (isThree : operation.format = .three)
    (decoded : decodeReference (first &&& 0xFC) first behind = .ok instruction) :
    ∃ lead rest, first :: behind = lead ++ rest ∧ Spells lead instruction := by
  unfold decodeReference at decoded
  split at decoded
  · rename_i second third rest
    by_cases unmarked : first &&& 0x03 = 0
    · rw [if_pos unmarked] at decoded
      cases decoded
      exact ⟨[first, second, third], rest, rfl, .simple found isThree unmarked⟩
    · rw [if_neg unmarked] at decoded
      cases isExtended : (Flags.ofBytes first second).e with
      | false =>
        simp only [isExtended, Bool.false_eq_true, if_false] at decoded
        cases decoded
        exact ⟨[first, second, third], rest, rfl, .relative found isThree unmarked isExtended⟩
      | true =>
        simp only [isExtended, if_true] at decoded
        split at decoded
        · rename_i fourth rest
          cases decoded
          exact ⟨[first, second, third, fourth], rest, rfl,
            .extended found isThree unmarked isExtended⟩
        · cases decoded
  · cases decoded

/-- **The decoder finds the instruction that the bytes at the front spell**, and reads no others. -/
theorem decode_eq_ok_iff :
    decode bytes = .ok instruction ↔ ∃ lead rest, bytes = lead ++ rest ∧ Spells lead instruction := by
  constructor
  · intro decoded
    cases bytes with
    | nil => cases decoded
    | cons first rest =>
      simp only [decode] at decoded
      split at decoded
      · cases decoded
      · rename_i operation found
        split at decoded
        · rename_i isOne
          cases decoded
          exact ⟨[first], _, rfl, .plain found isOne⟩
        · rename_i second rest isTwo
          cases decoded
          exact ⟨[first, second], rest, rfl, .registers found isTwo⟩
        · cases decoded
        · rename_i isThree
          exact spells_of_decodeReference found isThree decoded
  · rintro ⟨lead, rest, rfl, spells⟩
    exact spells.decode_append rest

theorem Spells.length_eq (spells : Spells lead instruction) :
    lead.length = instruction.length := by
  cases spells <;> rfl

/-- **What bytes spell is well-formed.** -/
theorem Spells.wellFormed (spells : Spells lead instruction) : instruction.WellFormed := by
  cases spells with
  | plain found isOne =>
    obtain ⟨member, isOpcode⟩ := mem_table_of_ofOpcode? found
    exact ⟨_, member, isOpcode, isOne⟩
  | @registers first second _ found isTwo =>
    obtain ⟨member, isOpcode⟩ := mem_table_of_ofOpcode? found
    have bound := second.toNat_lt
    exact ⟨_, member, isOpcode, isTwo, by omega, by omega⟩
  | @simple first second third _ found isThree unmarked =>
    obtain ⟨member, isOpcode⟩ := mem_table_of_ofOpcode? found
    have bound := third.toNat_lt
    exact ⟨_, member, isOpcode, isThree, by omega⟩
  | @relative first second third _ found isThree marked short =>
    obtain ⟨member, isOpcode⟩ := mem_table_of_ofOpcode? found
    have bound := third.toNat_lt
    exact ⟨_, member, isOpcode, isThree, short, (Flags.marked_ofBytes first second).mpr marked,
      by omega⟩
  | @extended first second third fourth _ found isThree marked long =>
    obtain ⟨member, isOpcode⟩ := mem_table_of_ofOpcode? found
    have thirdBound := third.toNat_lt
    have fourthBound := fourth.toNat_lt
    exact ⟨_, member, isOpcode, isThree, long, (Flags.marked_ofBytes first second).mpr marked,
      by omega⟩

/-! ### Encoding again -/

/-- The bytes of an instruction with zeros in the bits that it has no use for: the low bits of the
first byte are flags in a memory reference only. -/
def clearUnused (instruction : Instruction) (lead : List UInt8) : List UInt8 :=
  match instruction with
  | plain .. | registers .. => lead.modifyHead (· &&& 0xFC)
  | relative .. | extended .. | simple .. => lead

theorem ofNat_eq_of_toNat {byte : UInt8} {number : Nat} (same : number = byte.toNat) :
    UInt8.ofNat number = byte := by
  rw [same, UInt8.ofNat_toNat]

/-- The opcode and the flags of a first byte make it up. -/
theorem firstByte_ofBytes (first second : UInt8) :
    firstByte (first &&& 0xFC) (Flags.ofBytes first second) = first := by
  rw [firstByte, Flags.low_ofBytes]
  exact (byte_split_low first).1

/-- **Encoding again gives the bytes that spell an instruction**, but for unused bits. -/
theorem Spells.encode_eq (spells : Spells lead instruction) :
    instruction.encode = instruction.clearUnused lead := by
  cases spells with
  | plain => rfl
  | @registers first second =>
    have bound := second.toNat_lt
    have halves : UInt8.ofNat (16 * (second.toNat / 16 % 16) + second.toNat % 16 % 16) = second :=
      ofNat_eq_of_toNat (by omega)
    rw [encode, halves]
    rfl
  | @simple first second third _ _ _ unmarked =>
    have secondBound := second.toNat_lt
    have thirdBound := third.toNat_lt
    have isFirst : first &&& 0xFC = first := by
      obtain ⟨whole, low⟩ := byte_split_low first
      rw [low.mp unmarked] at whole
      exact UInt8.or_zero.symm.trans whole
    have indexed : (second.toNat / 128 == 1).toNat = second.toNat / 128 := by
      rw [← Nat.mod_eq_of_lt (show second.toNat / 128 < 2 by omega)]
      exact toNat_mod_two _
    have isSecond : UInt8.ofNat (128 * (second.toNat / 128 == 1).toNat +
        (256 * (second.toNat % 128) + third.toNat) / 256 % 128) = second :=
      ofNat_eq_of_toNat (by omega)
    have isThird : UInt8.ofNat ((256 * (second.toNat % 128) + third.toNat) % 256) = third :=
      ofNat_eq_of_toNat (by omega)
    rw [encode, isFirst, isSecond, isThird]
    rfl
  | @relative first second third =>
    have secondBound := second.toNat_lt
    have thirdBound := third.toNat_lt
    have isSecond : UInt8.ofNat (16 * (Flags.ofBytes first second).high +
        (256 * (second.toNat % 16) + third.toNat) / 256 % 16) = second :=
      ofNat_eq_of_toNat (by rw [Flags.high_ofBytes]; omega)
    have isThird : UInt8.ofNat ((256 * (second.toNat % 16) + third.toNat) % 256) = third :=
      ofNat_eq_of_toNat (by omega)
    show firstByte (first &&& 0xFC) (Flags.ofBytes first second) :: _ = _
    rw [firstByte_ofBytes, isSecond, isThird]
    rfl
  | @extended first second third fourth =>
    have secondBound := second.toNat_lt
    have thirdBound := third.toNat_lt
    have fourthBound := fourth.toNat_lt
    have isSecond : UInt8.ofNat (16 * (Flags.ofBytes first second).high +
        (65536 * (second.toNat % 16) + 256 * third.toNat + fourth.toNat) / 65536 % 16) = second :=
      ofNat_eq_of_toNat (by rw [Flags.high_ofBytes]; omega)
    have isThird : UInt8.ofNat ((65536 * (second.toNat % 16) + 256 * third.toNat +
        fourth.toNat) / 256 % 256) = third :=
      ofNat_eq_of_toNat (by omega)
    have isFourth : UInt8.ofNat ((65536 * (second.toNat % 16) + 256 * third.toNat +
        fourth.toNat) % 256) = fourth :=
      ofNat_eq_of_toNat (by omega)
    show firstByte (first &&& 0xFC) (Flags.ofBytes first second) :: _ = _
    rw [firstByte_ofBytes, isSecond, isThird, isFourth]
    rfl

/-- **Encoding and decoding undo each other.** A well-formed instruction is read back from its
bytes, whatever follows them. An instruction that was decoded is well-formed, its encoding is the
bytes that it was decoded from with the unused bits cleared, and the bytes behind these do not count
for it. -/
theorem encode_decode :
    (∀ instruction : Instruction, instruction.WellFormed → ∀ rest : List UInt8,
        decode (instruction.encode ++ rest) = .ok instruction ∧
          instruction.encode.length = instruction.length) ∧
      ∀ (bytes : List UInt8) (instruction : Instruction), decode bytes = .ok instruction →
        instruction.WellFormed ∧ instruction.length ≤ bytes.length ∧
          instruction.encode = instruction.clearUnused (bytes.take instruction.length) ∧
          ∀ rest : List UInt8, decode (bytes.take instruction.length ++ rest) = .ok instruction := by
  constructor
  · intro instruction wellFormed rest
    exact ⟨decode_encode wellFormed rest, length_encode instruction⟩
  · intro bytes instruction decoded
    obtain ⟨lead, behind, rfl, spells⟩ := decode_eq_ok_iff.mp decoded
    rw [← spells.length_eq, List.take_left, List.length_append]
    exact ⟨spells.wellFormed, Nat.le_add_right _ _, spells.encode_eq, spells.decode_append⟩

/-- An extended call comes back with its flags; of two registers added, with the low bits of the
first byte set, the second byte counts and the third one does not. -/
theorem encode_decode_call_add :
    decode [0x4B, 0x10, 0x10, 0x36, 0xFF] =
        .ok (.extended 0x48 { n := true, i := true, e := true } 0x1036) ∧
      (registers 0x90 4 5).WellFormed ∧ (registers 0x90 4 5).encode = [0x90, 0x45] ∧
      decode [0x93, 0x45, 0x00] = .ok (registers 0x90 4 5) := by
  have call : (extended 0x48 { n := true, i := true, e := true } 0x1036).WellFormed :=
    ⟨⟨.JSUB, 0x48, .three, .memory, .call⟩, by decide, rfl, rfl, rfl, rfl, by decide⟩
  have added : decode [0x93, 0x45] = .ok (registers 0x90 4 5) := rfl
  obtain ⟨wellFormed, _, again, same⟩ := encode_decode.2 _ _ added
  exact ⟨(encode_decode.1 _ call [0xFF]).1, wellFormed, again, same [0x00]⟩

end Instruction

end Sicxe
