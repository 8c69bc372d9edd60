/-!
# Words

The machine computes on 24-bit words and, in its floating-point register, on 48-bit long words.
A value is kept as an integer; `signExtend` and `Word.unsigned` are its two readings at a width:

* `signExtend bits value` reads the low `bits` bits in two's complement.
* `Word.signed` and `Word.unsigned` read the low 24 bits, the first with a sign.
-/

namespace Sicxe

/-- The number of values that some bits can hold. -/
def valueCount (bits : Nat) : Nat :=
  Nat.pow 2 bits

/-- The low `bits` bits of `value`, read as a two's complement number. -/
def signExtend (bits : Nat) (value : Int) : Int :=
  value.bmod (valueCount bits)

namespace Word

/-- The width of a word in bits. -/
def bits : Nat := 24

/-- The number of different words; addresses are taken modulo this number. -/
def modulus : Nat := 0x1000000

/-- The greatest unsigned word. -/
def mask : Nat := 0xFFFFFF

/-- The low 24 bits of `value` as a signed word. -/
def signed (value : Int) : Int :=
  signExtend bits value

/-- The low 24 bits of `value` as an unsigned word. -/
def unsigned (value : Int) : Nat :=
  (value % modulus).toNat

theorem unsigned_lt (value : Int) : unsigned value < modulus := by
  unfold unsigned modulus
  omega

/-- **A signed word lies in the two's complement range.** -/
theorem signed_bounds (value : Int) : -0x800000 ≤ signed value ∧ signed value < 0x800000 := by
  have count : valueCount bits = 0x1000000 := rfl
  rw [signed, signExtend, count, Int.bmod_def]
  split <;> omega

/-- The unsigned reading sees the low 24 bits only. -/
theorem unsigned_signed (value : Int) : unsigned (signed value) = unsigned value := by
  have count : valueCount bits = 0x1000000 := rfl
  rw [signed, signExtend, count, Int.bmod_def, unsigned, unsigned, modulus]
  split <;> omega

end Word

end Sicxe
