import Sicxe.Assembly.Encoding
import Sicxe.Proofs.Success

/-!
# The forms of an encoded reference

`Placement.encodeReference_cases` lists what a memory reference can be encoded as, each form with
the conditions under which it is chosen: an extended address, the addend of an import, a constant,
a distance from the base or a distance from the next instruction.
-/

namespace Sicxe

/-- An indexed operand has simple addressing. -/
theorem MemoryOperand.indexed_eq_false {text : String} {operand : MemoryOperand}
    (parsed : MemoryOperand.parse text = .ok operand) (special : operand.mode ≠ .simple) :
    operand.indexed = false := by
  unfold parse at parsed
  dsimp only at parsed
  generalize splitMode text.toList = split at parsed
  generalize splitIndex split.2 = body at parsed
  have notIndexed : ∀ {target : Target}, ¬ (body.1 && split.1 != .simple) = true →
      (⟨split.1, target, body.1⟩ : MemoryOperand) = operand → operand.indexed = false := by
    rintro target allowed rfl
    cases indexed : body.1 with
    | false => rfl
    | true =>
      rw [indexed, Bool.true_and, bne_iff_ne, Decidable.not_not] at allowed
      exact absurd allowed special
  split at parsed
  · cases parsed
  · rename_i allowed
    split at parsed
    · split at parsed
      · cases parsed
      · obtain ⟨_, _, same⟩ := map_eq_ok_iff.mp parsed
        exact notIndexed allowed same
    · obtain ⟨_, _, same⟩ := map_eq_ok_iff.mp parsed
      exact notIndexed allowed same

namespace Placement

variable {placement : Placement} {base : Option UInt32} {line : PlacedLine} {opcode : UInt8}
variable {extended : Bool} {text : String} {instruction : Instruction}
variable {record : Option Relocation}

/-- What a reference to `value` is encoded as. -/
inductive ReferenceForm (placement : Placement) (base : Option UInt32) (line : PlacedLine)
    (opcode : UInt8) (operand : MemoryOperand) (text : String) (value : Value) :
    Bool → Instruction → Option Relocation → Prop
  | extended {field : AddressField} (holds : placement.addressField text value = .ok field)
      (least : 0 ≤ field.value) (greatest : field.value ≤ 0xFFFFF) :
      ReferenceForm placement base line opcode operand text value true
        (.extended opcode { operandFlags operand with e := true } field.value.toNat)
        (field.symbol.map (Relocation.address20 (placement.offset line)))
  | imported {symbol : String} (isImport : value.external = some symbol)
      (least : -2048 ≤ value.constant) (greatest : value.constant ≤ 2047) :
      ReferenceForm placement base line opcode operand text value false
        (.relative opcode { operandFlags operand with p := true } (value.constant % 4096).toNat)
        (some (Relocation.displacement (placement.offset line) symbol))
  | constant (isLocal : value.external = none) (fixed : value.relative = 0)
      (least : 0 ≤ value.constant) (greatest : value.constant ≤ 4095) :
      ReferenceForm placement base line opcode operand text value false
        (.relative opcode (operandFlags operand) value.constant.toNat) none
  | based {distance : Nat} (isLocal : value.external = none) (moves : value.relative = 1)
      (near : baseDistance? base value.constant = some distance) :
      ReferenceForm placement base line opcode operand text value false
        (.relative opcode { operandFlags operand with b := true } distance) none
  | counted (isLocal : value.external = none) (moves : value.relative = 1)
      (notBased : baseDistance? base value.constant = none)
      (least : -2048 ≤ value.constant - (line.address + 3 : Nat))
      (greatest : value.constant - (line.address + 3 : Nat) ≤ 2047) :
      ReferenceForm placement base line opcode operand text value false
        (.relative opcode { operandFlags operand with p := true }
          ((value.constant - (line.address + 3 : Nat)) % 4096).toNat) none

/-- A distance from the base is the constant that the base lies below the target. -/
theorem baseDistance?_eq_some {target : Int} {distance : Nat}
    (near : baseDistance? base target = some distance) :
    ∃ address, base = some address ∧ target = address.toNat + distance ∧ distance ≤ 4095 := by
  unfold baseDistance? at near
  split at near
  · cases near
  · rename_i address
    dsimp only at near
    split at near
    · cases near
      exact ⟨address, rfl, by omega, by omega⟩
    · cases near

theorem encodeLocal_cases {flags : Flags} {target : Int}
    (succeeded : encodeLocal base line opcode flags target = .ok instruction) :
    (∃ distance, baseDistance? base target = some distance ∧
      instruction = .relative opcode { flags with b := true } distance) ∨
    (baseDistance? base target = none ∧ -2048 ≤ target - (line.address + 3 : Nat) ∧
      target - (line.address + 3 : Nat) ≤ 2047 ∧ instruction =
        .relative opcode { flags with p := true }
          ((target - (line.address + 3 : Nat)) % 4096).toNat) := by
  unfold encodeLocal at succeeded
  split at succeeded
  · rename_i distance near
    cases succeeded
    exact Or.inl ⟨distance, near, rfl⟩
  · rename_i far
    dsimp only at succeeded
    split at succeeded
    · rename_i near
      cases succeeded
      exact Or.inr ⟨far, near.1, near.2, rfl⟩
    · cases succeeded

/-- **A reference is encoded in one of five forms.** -/
theorem encodeReference_cases
    (succeeded : placement.encodeReference base line opcode extended text =
      .ok (instruction, record)) :
    ∃ operand value, MemoryOperand.parse text = .ok operand ∧
      placement.targetValue operand.target line.address = .ok value ∧
      ReferenceForm placement base line opcode operand text value extended instruction record := by
  obtain ⟨operand, parsed, succeeded⟩ := bind_eq_ok_iff.mp succeeded
  obtain ⟨value, evaluated, succeeded⟩ := bind_eq_ok_iff.mp succeeded
  refine ⟨operand, value, parsed, evaluated, ?_⟩
  cases extended with
  | true =>
    obtain ⟨field, holds, succeeded⟩ := bind_eq_ok_iff.mp succeeded
    split at succeeded
    · rename_i bounded
      cases succeeded
      exact .extended holds bounded.1 bounded.2
    · cases succeeded
  | false =>
    rw [if_neg Bool.false_ne_true] at succeeded
    split at succeeded
    · rename_i symbol isImport
      unfold encodeImport at succeeded
      split at succeeded
      · rename_i bounded
        cases succeeded
        exact .imported isImport bounded.1 bounded.2
      · cases succeeded
    · rename_i isLocal
      split at succeeded
      · rename_i fixed
        obtain ⟨_, constant, same⟩ := bind_eq_ok_iff.mp succeeded
        unfold encodeConstant at constant
        split at constant
        · rename_i bounded
          cases constant
          cases same
          exact .constant isLocal fixed bounded.1 bounded.2
        · cases constant
      · split at succeeded
        · rename_i moves
          obtain ⟨_, encoded, same⟩ := bind_eq_ok_iff.mp succeeded
          cases same
          rcases encodeLocal_cases encoded with ⟨distance, near, rfl⟩ | ⟨far, least, greatest, rfl⟩
          · exact .based isLocal moves near
          · exact .counted isLocal moves far least greatest
        · cases succeeded

theorem addressing_operandFlags (operand : MemoryOperand) (b p e : Bool) :
    ({ operandFlags operand with b, p, e } : Flags).addressing = operand.mode := by
  obtain ⟨mode, target, indexed⟩ := operand
  cases mode <;> rfl

theorem operandFlags_marked (operand : MemoryOperand) :
    ((operandFlags operand).n || (operandFlags operand).i) = true := by
  obtain ⟨mode, target, indexed⟩ := operand
  cases mode <;> rfl

/-- An extended reference takes four bytes and every other one three. -/
theorem ReferenceForm.length {operand : MemoryOperand} {value : Value}
    (form : ReferenceForm placement base line opcode operand text value extended instruction
      record) : instruction.length = if extended then 4 else 3 := by
  cases form <;> rfl

/-- **The form of a reference is one that its encoding can hold.** -/
theorem ReferenceForm.wellFormed {found : Operation} {operand : MemoryOperand} {value : Value}
    (member : found ∈ Operation.table)
    (isThree : found.format = .three)
    (form : ReferenceForm placement base line found.opcode operand text value extended instruction
      record) : instruction.WellFormed := by
  have marked := operandFlags_marked operand
  refine ⟨found, member, ?_⟩
  cases form with
  | extended holds least greatest => exact ⟨rfl, isThree, rfl, marked, by omega⟩
  | imported isImport least greatest => exact ⟨rfl, isThree, rfl, marked, by omega⟩
  | constant isLocal fixed least greatest => exact ⟨rfl, isThree, rfl, marked, by omega⟩
  | based isLocal moves near =>
    obtain ⟨_, _, _, bound⟩ := baseDistance?_eq_some near
    exact ⟨rfl, isThree, rfl, marked, by omega⟩
  | counted isLocal moves notBased least greatest => exact ⟨rfl, isThree, rfl, marked, by omega⟩

end Placement

end Sicxe
