import Mathlib.Data.List.Basic
import Sicxe.Numeral
import Sicxe.Proofs.Text.Lines
import Sicxe.Text.Hex

/-!
# Reading hexadecimal text

What is written in hexadecimal digits is read back as the number that was written.

* `Hex.natural?_padded`: a number below the bound comes back, whatever its padding.
* `Hex.padded_injective`: different numbers have different texts.
* `Hex.isDigit_of_mem_padded`: only digits are written, and `IsDigit.plain` says that a digit is
  none of the marks of a record.
-/

namespace Sicxe

namespace Numeral

/-- Digits continue the number that the digits before them spell. -/
theorem accumulate?_append (radix start : Nat) (front back : List Char) :
    accumulate? radix start (front ++ back) =
      (accumulate? radix start front).bind fun number => accumulate? radix number back := by
  induction front generalizing start with
  | nil => rfl
  | cons c rest ih =>
    simp only [List.cons_append, accumulate?, ih]
    exact (Option.bind_assoc ..).symm

end Numeral

namespace Hex

open Numeral

/-- An upper-case hexadecimal digit. -/
def IsDigit (c : Char) : Prop :=
  ∃ number < 16, c = digit number

/-- **A digit is no mark and no blank**, and it takes one byte. -/
theorem IsDigit.plain {c : Char} (isDigit : IsDigit c) :
    c ≠ '^' ∧ c ≠ '\n' ∧ c ≠ '+' ∧ Text.isBlank c = false ∧ c.utf8Size = 1 := by
  have plain : ∀ number < 16, digit number ≠ '^' ∧ digit number ≠ '\n' ∧ digit number ≠ '+' ∧
      Text.isBlank (digit number) = false ∧ (digit number).utf8Size = 1 := by decide
  obtain ⟨number, small, rfl⟩ := isDigit
  exact plain number small

theorem digitValue?_digit : ∀ number < 16, digitValue? 16 (digit number) = some number := by
  decide

theorem accumulate?_digit (start : Nat) {number : Nat} (small : number < 16) :
    accumulate? 16 start [digit number] = some (start * 16 + number) := by
  simp only [accumulate?, digitValue?_digit number small, Option.bind_some]

/-! ### Digits without leading zeros -/

theorem isDigit_of_mem_digits {number : Nat} {c : Char} (member : c ∈ digits number) :
    IsDigit c := by
  fun_induction digits number with
  | case1 number small => exact ⟨number, small, List.mem_singleton.mp member⟩
  | case2 number large ih =>
    rcases List.mem_append.mp member with front | last
    · exact ih front
    · exact ⟨number % 16, Nat.mod_lt _ (by omega), List.mem_singleton.mp last⟩

theorem digits_ne_nil (number : Nat) : digits number ≠ [] := by
  unfold digits
  split
  · exact List.cons_ne_nil _ _
  · exact List.append_ne_nil_of_right_ne_nil _ (List.cons_ne_nil _ _)

theorem accumulate?_digits (number : Nat) : accumulate? 16 0 (digits number) = some number := by
  fun_induction digits number with
  | case1 number small => rw [accumulate?_digit 0 small, Nat.zero_mul, Nat.zero_add]
  | case2 number large ih =>
    rw [accumulate?_append, ih, Option.bind_some, accumulate?_digit _ (Nat.mod_lt _ (by omega)),
      Nat.mul_comm, Nat.div_add_mod]

/-! ### Padded digits -/

theorem isDigit_of_mem_padded {width number : Nat} {c : Char} (member : c ∈ padded width number) :
    IsDigit c := by
  rcases List.mem_append.mp member with zero | isDigit
  · exact ⟨0, by omega, (List.mem_replicate.mp zero).2⟩
  · exact isDigit_of_mem_digits isDigit

theorem padded_ne_nil (width number : Nat) : padded width number ≠ [] :=
  List.append_ne_nil_of_right_ne_nil _ (digits_ne_nil number)

/-- Leading zeros do not count. -/
theorem accumulate?_padded (width number : Nat) :
    accumulate? 16 0 (padded width number) = some number := by
  have zeros : ∀ count, accumulate? 16 0 (List.replicate count '0') = some 0 := by
    intro count
    induction count with
    | zero => rfl
    | succ count ih => exact ih
  rw [padded, List.leftpad, accumulate?_append, zeros, Option.bind_some, accumulate?_digits]

/-- **A padded number below the bound comes back.** -/
theorem natural?_padded (width : Nat) {number bound : Nat} (small : number < bound) :
    natural? 16 bound (padded width number) = some number := by
  have unsigned : ∀ rest, padded width number ≠ '+' :: rest := by
    intro rest same
    have inText : '+' ∈ padded width number := by
      rw [same]
      exact List.mem_cons_self
    exact (isDigit_of_mem_padded inText).plain.2.2.1 rfl
  have nonempty : (padded width number).isEmpty = false := by
    simpa using padded_ne_nil width number
  unfold natural?
  split
  · rename_i rest same
    exact absurd same (unsigned rest)
  · simp only [digits?, nonempty, Bool.false_eq_true, if_false, accumulate?_padded,
      Option.filter_some, small, decide_true, if_true]

/-- **Different numbers have different texts.** -/
theorem padded_injective (width : Nat) : Function.Injective (padded width) := by
  intro first second same
  have read := congrArg (accumulate? 16 0) same
  rw [accumulate?_padded, accumulate?_padded] at read
  exact Option.some.inj read

/-- A byte has two digits. -/
theorem padded_byte (byte : UInt8) :
    padded 2 byte.toNat = [digit (byte.toNat / 16), digit (byte.toNat % 16)] := by
  have bound := byte.toNat_lt
  have high : byte.toNat / 16 < 16 := by omega
  unfold padded digits
  split
  · rename_i small
    rw [Nat.div_eq_of_lt small, Nat.mod_eq_of_lt small]
    rfl
  · rw [digits, if_pos high]
    rfl

theorem isDigit_of_mem_ofBytes {bytes : List UInt8} {c : Char} (member : c ∈ ofBytes bytes) :
    IsDigit c := by
  obtain ⟨byte, _, inByte⟩ := List.mem_flatMap.mp member
  exact isDigit_of_mem_padded inByte

/-- Two characters are written for every byte, and each takes one byte of text. -/
theorem byteLength_ofBytes (bytes : List UInt8) :
    Text.byteLength (ofBytes bytes) = 2 * bytes.length := by
  have narrow : ∀ c ∈ ofBytes bytes, c.utf8Size = 1 :=
    fun c member => (isDigit_of_mem_ofBytes member).plain.2.2.2.2
  rw [Text.byteLength_eq_length narrow]
  induction bytes with
  | nil => rfl
  | cons byte rest ih =>
    rw [ofBytes, List.flatMap_cons, List.length_append, padded_byte, ← ofBytes,
      ih fun c member => narrow c (List.mem_append_right _ member), List.length_cons]
    simp only [List.length_cons, List.length_nil]
    omega

end Hex

end Sicxe
