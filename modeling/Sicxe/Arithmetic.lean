import Sicxe.Word

/-!
# Word arithmetic

The operations of the arithmetic unit on signed words, the condition code that a comparison
leaves behind, and the two shifts. Every result is again a signed word:

* `Arithmetic.apply` computes in the integers and wraps; only a division by zero has no result.
* `rotateLeft` turns the 24 bits in a circle, `shiftRight` fills with the sign.
-/

namespace Sicxe

/-- The result of a comparison, as the machine keeps it in the low two bits of SW. -/
inductive ConditionCode where
  | equal
  | less
  | greater
  deriving DecidableEq, Repr

namespace ConditionCode

/-- The two bits that stand for the code. -/
def toNat : ConditionCode → Nat
  | equal => 0
  | less => 1
  | greater => 2

/-- The code that a number stands for; 3 and above name none. -/
def ofNat? : Nat → Option ConditionCode
  | 0 => some equal
  | 1 => some less
  | 2 => some greater
  | _ => none

theorem ofNat?_toNat (code : ConditionCode) : ofNat? code.toNat = some code := by
  cases code <;> rfl

/-- How `left` compares with `right`. -/
def compare (left right : Int) : ConditionCode :=
  if left < right then less else if left = right then equal else greater

end ConditionCode

/-- An operation of the arithmetic unit. -/
inductive Arithmetic where
  | add
  | sub
  | mul
  | div
  | and
  | or
  deriving DecidableEq, Repr

namespace Arithmetic

/-- Arithmetic results set the condition code; the results of the logic operations do not. -/
def setsCode : Arithmetic → Bool
  | add | sub | mul | div => true
  | and | or => false

/-- The result of an operation as a signed word, none on a division by zero. A quotient is cut
off towards zero. -/
def apply (operation : Arithmetic) (left right : Int) : Option Int :=
  match operation with
  | add => some (Word.signed (left + right))
  | sub => some (Word.signed (left - right))
  | mul => some (Word.signed (left * right))
  | div => if right = 0 then none else some (Word.signed (left.tdiv right))
  | and => some (Word.signed (Word.unsigned left &&& Word.unsigned right : Nat))
  | or => some (Word.signed (Word.unsigned left ||| Word.unsigned right : Nat))

/-- **Only a division by zero has no result.** -/
theorem apply_eq_none_iff (operation : Arithmetic) (left right : Int) :
    operation.apply left right = none ↔ operation = div ∧ right = 0 := by
  cases operation <;> simp [apply]

end Arithmetic

namespace Word

/-- The 24 bits of `value` turned left by `count` places in a circle. -/
def rotateLeft (value : Int) (count : Nat) : Int :=
  let word := unsigned value
  let places := count % bits
  signed (word * valueCount places % modulus + word / valueCount (bits - places) : Nat)

/-- `value` moved right by `count` places, the vacated bits taking its sign; 23 places already
leave nothing but the sign. -/
def shiftRight (value : Int) (count : Nat) : Int :=
  signed (value >>> (min count (bits - 1)))

end Word

end Sicxe
