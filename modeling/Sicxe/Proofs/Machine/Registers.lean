import Sicxe.Machine.Registers
import Sicxe.Proofs.Word

/-!
# Registers and their widths

`Registers.InWidth` says that every register holds a value of its width. Putting values into
registers keeps this, as only their low bits are kept, and it gives

* `InWidth.bounds`: the ranges of the values,
* `InWidth.getWord`: a word fits in 32 bits when it is read,
* `setCounter_counter`: the counter can be read and put back.
-/

namespace Sicxe

/-- A value that is extended from some bits lies in their two's complement range. -/
theorem signExtend_bounds {bits : Nat} (positive : 0 < bits) (value : Int) :
    -(valueCount bits : Int) ≤ 2 * signExtend bits value ∧
      2 * signExtend bits value < valueCount bits := by
  have even : valueCount bits = 2 * valueCount (bits - 1) := by
    rw [valueCount, valueCount, Nat.pow_eq, Nat.pow_eq, ← Nat.pow_succ', Nat.succ_eq_add_one,
      Nat.sub_add_cancel positive]
  have count : 0 < valueCount bits := Nat.pow_pos (a := 2) (by decide)
  have least := Int.emod_nonneg value (show (valueCount bits : Int) ≠ 0 by omega)
  have greatest := Int.emod_lt_of_pos value (show 0 < (valueCount bits : Int) by omega)
  rw [signExtend, Int.bmod_def]
  split <;> omega

/-- A value of 24 bits is its own reading at 32 bits. -/
theorem signExtend_of_word {value : Int} (least : -0x800000 ≤ value) (greatest : value < 0x800000) :
    signExtend 32 value = value := by
  have count : valueCount 32 = 0x100000000 := rfl
  rw [signExtend, count, Int.bmod_def]
  split <;> omega

namespace Registers

variable {registers : Registers} {register : Register}

/-- Every register holds a value of its width. -/
def InWidth (registers : Registers) : Prop :=
  ∀ register, signExtend register.width.bits (registers.get register) = registers.get register

theorem inWidth_empty : ({} : Registers).InWidth := by
  intro register
  cases register <;> rfl

/-- **A register takes the low bits of what is put into it.** -/
theorem InWidth.set (inWidth : registers.InWidth) (register : Register) (value : Int) :
    (registers.set register value).InWidth := by
  intro other
  rw [get_set]
  by_cases same : other = register
  · rw [if_pos same, same]
    exact Int.bmod_bmod
  · rw [if_neg same]
    exact inWidth other

theorem InWidth.setCounter (inWidth : registers.InWidth) (address : Nat) :
    (registers.setCounter address).InWidth :=
  inWidth.set .PC address

theorem InWidth.setCode (inWidth : registers.InWidth) (code : ConditionCode) :
    (registers.setCode code).InWidth :=
  inWidth.set .SW _

/-- **The values of the registers lie in the ranges of their widths.** -/
theorem InWidth.bounds (inWidth : registers.InWidth) (register : Register) :
    -(valueCount register.width.bits : Int) ≤ 2 * registers.get register ∧
      2 * registers.get register < valueCount register.width.bits := by
  have positive : 0 < register.width.bits := by cases register <;> decide
  rw [← inWidth register]
  exact signExtend_bounds positive _

theorem InWidth.word_bounds (inWidth : registers.InWidth) (isWord : register.width = .word) :
    -0x800000 ≤ registers.get register ∧ registers.get register < 0x800000 := by
  have bounds := inWidth.bounds register
  have count : valueCount register.width.bits = 0x1000000 := by rw [isWord]; rfl
  omega

theorem InWidth.long_bounds (inWidth : registers.InWidth) (isLong : register.width = .long) :
    -0x800000000000 ≤ registers.get register ∧ registers.get register < 0x800000000000 := by
  have bounds := inWidth.bounds register
  have count : valueCount register.width.bits = 0x1000000000000 := by rw [isLong]; rfl
  omega

/-- **A word loses nothing when it is read into 32 bits.** -/
theorem InWidth.getWord (inWidth : registers.InWidth) (isWord : register.width = .word) :
    registers.getWord register = .ok (signExtend 32 (registers.get register)) ∧
      signExtend 32 (registers.get register) = registers.get register := by
  obtain ⟨least, greatest⟩ := inWidth.word_bounds isWord
  have same := signExtend_of_word least greatest
  exact ⟨by rw [Registers.getWord, if_pos isWord, same], same⟩

theorem setCounter_eq (registers : Registers) (address : Nat) :
    registers.setCounter address =
      { registers with pc := signExtend Register.PC.width.bits address } := rfl

theorem setCounter_setCounter (registers : Registers) (first second : Nat) :
    (registers.setCounter first).setCounter second = registers.setCounter second := by
  rw [setCounter_eq, setCounter_eq, setCounter_eq]

theorem l_setCounter (registers : Registers) (address : Nat) :
    (registers.setCounter address).l = registers.l := by
  rw [setCounter_eq]

/-- Putting the counter where it is changes nothing. -/
theorem setCounter_counter {registers : Registers} (inWidth : registers.InWidth) :
    registers.setCounter registers.counter = registers := by
  have width : Register.PC.width.bits = Word.bits := rfl
  have held : Word.signed registers.pc = registers.pc := inWidth .PC
  have back : signExtend Word.bits registers.counter = registers.pc :=
    (Word.signed_unsigned registers.pc).trans held
  simp only [setCounter, Registers.set, width, back]

end Registers

end Sicxe
