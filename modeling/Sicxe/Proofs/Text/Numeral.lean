import Sicxe.Numeral

/-!
# Which texts are numbers

The value of a digit is its place in the list of the digits. A text that is only digits of a radix
is read as the number that they write (`Numeral.digits?_eq_some_iff`).

`Hex.number` is the number that some hexadecimal digits write. The reader of unsigned numbers takes
exactly the texts that are such digits behind at most one plus sign
(`Numeral.natural?_eq_some_iff`); nothing but the sign tells them from the texts of digits only.
-/

namespace Sicxe

/-- What holds of the characters of a list is checked on the list, as there are too many characters
to go through them all. -/
theorem forall_mem_of_all {text : List Char} {P : Char → Prop} [DecidablePred P]
    (each : text.all (fun c => decide (P c)) = true) : ∀ c ∈ text, P c :=
  fun c member => of_decide_eq_true (List.all_eq_true.mp each c member)

namespace Hex

/-- The hexadecimal digits, those above nine in both cases. -/
def digitChars : List Char :=
  ['0', '1', '2', '3', '4', '5', '6', '7', '8', '9', 'a', 'b', 'c', 'd', 'e', 'f',
    'A', 'B', 'C', 'D', 'E', 'F']

/-- The value of a digit. -/
def digitNumber (c : Char) : Nat :=
  digitChars.idxOf c.toLower

/-- The number that some digits write behind those of `start`. -/
def numberFrom (start : Nat) (digits : List Char) : Nat :=
  digits.foldl (fun number c => 16 * number + digitNumber c) start

/-- The number that some digits write. -/
def number (digits : List Char) : Nat :=
  numberFrom 0 digits

/-- One or more hexadecimal digits, and nothing else. -/
def IsNumeral (text : List Char) : Prop :=
  text ≠ [] ∧ ∀ c ∈ text, c ∈ digitChars

/-- A text without the plus sign at its front, if there is one. -/
def unsigned : List Char → List Char
  | '+' :: rest => rest
  | text => text

/-- A plus sign is no digit. -/
theorem IsNumeral.plus_not_mem {text : List Char} (numeral : IsNumeral text) : '+' ∉ text := by
  intro member
  exact absurd (numeral.2 '+' member) (by decide)

theorem unsigned_of_ne {text : List Char} (noPlus : ∀ rest, text ≠ '+' :: rest) :
    unsigned text = text := by
  unfold unsigned
  split
  · exact absurd rfl (noPlus _)
  · rfl

theorem unsigned_of_not_mem {text : List Char} (noPlus : '+' ∉ text) : unsigned text = text := by
  refine unsigned_of_ne fun rest same => noPlus ?_
  rw [same]
  exact List.mem_cons_self

end Hex

namespace Numeral

open Hex

variable {radix start number bound : Nat} {text : List Char} {c : Char}

/-- The number that some digits of a radix write behind those of `start`. -/
def numberFrom (radix start : Nat) (digits : List Char) : Nat :=
  digits.foldl (fun number c => radix * number + digitNumber c) start

/-- One or more digits of a radix, and the number that they write. -/
structure Writes (radix : Nat) (text : List Char) (number : Nat) : Prop where
  nonempty : text ≠ []
  digits : ∀ c ∈ text, c ∈ digitChars ∧ digitNumber c < radix
  number : numberFrom radix 0 text = number

theorem digitValue?_of_mem : ∀ c ∈ digitChars, digitValue? 16 c = some (digitNumber c) :=
  forall_mem_of_all (by decide)

/-- The first ten digits are the decimal ones. -/
theorem isDigit_of_digitNumber : ∀ c ∈ digitChars, digitNumber c < 10 → c.isDigit = true :=
  forall_mem_of_all (by decide)

/-- A character beyond the ASCII ones is no digit. -/
theorem lt_of_isSome (isDigit : (digitValue? 16 c).isSome = true) : c.toNat < 128 := by
  refine Nat.lt_of_not_le fun beyond => ?_
  have noDigit : c.isDigit = false := by
    refine Bool.eq_false_iff.mpr fun digit => ?_
    have last : c.toNat ≤ 57 :=
      UInt32.le_iff_toNat_le.mp (of_decide_eq_true (Bool.and_eq_true_iff.mp digit).2)
    omega
  have noLower : c.isLower = false := by
    refine Bool.eq_false_iff.mpr fun lower => ?_
    have last : c.toNat ≤ 122 :=
      UInt32.le_iff_toNat_le.mp (of_decide_eq_true (Bool.and_eq_true_iff.mp lower).2)
    omega
  have noUpper : c.isUpper = false := by
    refine Bool.eq_false_iff.mpr fun upper => ?_
    have last : c.toNat ≤ 90 := UInt32.le_iff_toNat_le.mp (of_decide_eq_true upper).2
    omega
  simp [digitValue?, noDigit, noLower, noUpper] at isDigit

/-- **Only the digits have a value in the radix 16.** -/
theorem mem_digitChars_of_isSome (isDigit : (digitValue? 16 c).isSome = true) :
    c ∈ digitChars := by
  have listed : ∀ code < 128, (digitValue? 16 (Char.ofNat code)).isSome = true →
      Char.ofNat code ∈ digitChars := by
    decide
  have member := listed c.toNat (lt_of_isSome isDigit)
  rw [Char.ofNat_toNat] at member
  exact member isDigit

/-- The digits of a smaller radix are the ones of a smaller value. -/
theorem digitValue?_of_le {value : Nat} (small : radix ≤ 16) :
    digitValue? radix c = some value ↔ digitValue? 16 c = some value ∧ value < radix := by
  unfold digitValue?
  generalize c.isDigit = decimal, c.isLower = lower, c.isUpper = upper
  cases decimal <;> cases lower <;> cases upper <;> simp <;> omega

theorem digitValue?_eq_some_iff {value : Nat} (small : radix ≤ 16) :
    digitValue? radix c = some value ↔
      (c ∈ digitChars ∧ digitNumber c < radix) ∧ digitNumber c = value := by
  rw [digitValue?_of_le small]
  constructor
  · rintro ⟨isDigit, below⟩
    have member : c ∈ digitChars := mem_digitChars_of_isSome (by rw [isDigit]; rfl)
    rw [digitValue?_of_mem c member] at isDigit
    cases isDigit
    exact ⟨⟨member, below⟩, rfl⟩
  · rintro ⟨⟨member, below⟩, rfl⟩
    exact ⟨digitValue?_of_mem c member, below⟩

theorem accumulate?_eq_some_iff (small : radix ≤ 16) :
    accumulate? radix start text = some number ↔
      (∀ c ∈ text, c ∈ digitChars ∧ digitNumber c < radix) ∧
        numberFrom radix start text = number := by
  induction text generalizing start with
  | nil => simp [accumulate?, numberFrom]
  | cons c rest ih =>
    rw [accumulate?, Option.bind_eq_some_iff, List.forall_mem_cons]
    simp only [digitValue?_eq_some_iff small, ih]
    have next : numberFrom radix start (c :: rest) =
        numberFrom radix (start * radix + digitNumber c) rest := by
      rw [numberFrom, List.foldl_cons, Nat.mul_comm]
      rfl
    rw [next]
    constructor
    · rintro ⟨_, ⟨isDigit, rfl⟩, digits, same⟩
      exact ⟨⟨isDigit, digits⟩, same⟩
    · rintro ⟨⟨isDigit, digits⟩, same⟩
      exact ⟨_, ⟨isDigit, rfl⟩, digits, same⟩

/-- **A number is read from the digits that write it**, in every radix up to 16. -/
theorem digits?_eq_some_iff (small : radix ≤ 16) :
    digits? radix text = some number ↔ Writes radix text number := by
  unfold digits?
  split
  · rename_i empty
    rw [List.isEmpty_iff] at empty
    exact ⟨fun impossible => (nomatch impossible), fun writes => absurd empty writes.nonempty⟩
  · rename_i nonempty
    rw [List.isEmpty_iff] at nonempty
    rw [accumulate?_eq_some_iff small]
    exact ⟨fun ⟨digits, same⟩ => ⟨nonempty, digits, same⟩,
      fun writes => ⟨writes.digits, writes.number⟩⟩

/-- In the radix 16, all digits count. -/
theorem writes_hex_iff :
    Writes 16 text number ↔ IsNumeral text ∧ Hex.number text = number := by
  have below : ∀ c ∈ digitChars, digitNumber c < 16 := forall_mem_of_all (by decide)
  constructor
  · rintro ⟨nonempty, digits, same⟩
    exact ⟨⟨nonempty, fun c member => (digits c member).1⟩, same⟩
  · rintro ⟨⟨nonempty, digits⟩, same⟩
    exact ⟨nonempty, fun c member => ⟨digits c member, below c (digits c member)⟩, same⟩

/-- **The unsigned numbers are the hexadecimal digits behind at most one plus sign**, as long as
they stay below the bound. -/
theorem natural?_eq_some_iff :
    natural? 16 bound text = some number ↔
      IsNumeral (unsigned text) ∧ Hex.number (unsigned text) = number ∧ number < bound := by
  have digits : natural? 16 bound text =
      (digits? 16 (unsigned text)).filter (· < bound) := by
    unfold natural?
    split
    · rfl
    · rename_i noPlus
      rw [unsigned_of_ne noPlus]
  rw [digits, Option.filter_eq_some_iff, digits?_eq_some_iff (Nat.le_refl 16), writes_hex_iff,
    decide_eq_true_eq, and_assoc]

end Numeral

end Sicxe
