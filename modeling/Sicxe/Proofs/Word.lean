import Sicxe.Word

/-!
# The readings of a word

* `Word.signed_unsigned`, `Word.unsigned_eq_iff`: both readings depend on the low 24 bits only.
* `toNat_ofInt_emod`: a number as an address of 32 bits.
* `signExtend_of_near`: a displacement of 12 bits comes back from its unsigned form.
-/

namespace Sicxe

namespace Word

/-- The signed reading sees the low 24 bits only. -/
theorem signed_unsigned (value : Int) : signed (unsigned value) = signed value := by
  have count : valueCount bits = modulus := rfl
  have nonneg : 0 ≤ value % (modulus : Int) := Int.emod_nonneg _ (by decide)
  rw [unsigned, Int.toNat_of_nonneg nonneg, signed, signed, signExtend, signExtend, count,
    Int.emod_bmod]

theorem unsigned_eq_iff {first second : Int} :
    unsigned first = unsigned second ↔ first % 0x1000000 = second % 0x1000000 := by
  unfold unsigned modulus
  omega

end Word

/-- A number as 32 bits keeps its low bits. -/
theorem toNat_ofInt_emod (number : Int) :
    ((UInt32.ofInt number).toNat : Int) = number % 0x100000000 := by
  show ((UInt32.ofNat (number % 0x100000000).toNat).toNat : Int) = _
  rw [UInt32.toNat_ofNat']
  omega

theorem signExtend_of_near {distance : Int} (least : -2048 ≤ distance)
    (greatest : distance ≤ 2047) : signExtend 12 ((distance % 4096).toNat : Int) = distance := by
  have count : valueCount 12 = 4096 := rfl
  rw [signExtend, count, Int.bmod_def]
  split <;> omega

end Sicxe
