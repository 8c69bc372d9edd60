import Mathlib.Data.List.Induction
import Sicxe.Bytes
import Sicxe.Word

/-!
# Numbers and stretches of bytes

* `Bytes.value_ofNat` and `Bytes.ofNat_value`: writing a number in some bytes and reading bytes as
  a number undo each other, up to the number of values that the bytes can hold.
* `Bytes.testBit_value`: the bits of a number are those of its bytes.
* `Bytes.slice_write_self`, `Bytes.getElem?_write_of_apart`: what a buffer reads inside and outside
  of a stretch that was written. `Bytes.toList_write` is the same for a buffer in parts.
* `Bytes.write_append`, `Bytes.slice_append`: what lies behind other bytes is written and read as
  without them.
* `Bytes.Agree`: a buffer holds the first bytes of a second one from some distance on. Agreement
  survives a write to both (`Agree.write`) and a change outside of it (`Agree.of_kept`).
-/

namespace Sicxe

theorem valueCount_pos (bits : Nat) : 0 < valueCount bits :=
  Nat.two_pow_pos bits

theorem valueCount_add (first second : Nat) :
    valueCount (first + second) = valueCount first * valueCount second :=
  Nat.pow_add 2 first second

namespace Bytes

/-! ### Numbers -/

theorem value_append_byte (bytes : List UInt8) (byte : UInt8) :
    value (bytes ++ [byte]) = value bytes * 256 + byte.toNat := by
  rw [value, List.foldl_append]
  rfl

theorem valueCount_bytes (length : Nat) :
    valueCount (8 * (length + 1)) = valueCount (8 * length) * 256 := by
  rw [Nat.mul_add, valueCount_add]
  rfl

/-- A byte string spells a number that its bits can hold. -/
theorem value_lt (bytes : List UInt8) : value bytes < valueCount (8 * bytes.length) := by
  induction bytes using List.reverseRecOn with
  | nil => exact valueCount_pos 0
  | append_singleton bytes byte ih =>
    rw [value_append_byte, List.length_append, List.length_singleton, valueCount_bytes]
    have := byte.toNat_lt
    omega

/-- **A number written in some bytes reads as its low bits.** -/
theorem value_ofNat (width number : Nat) :
    value (ofNat width number) = number % valueCount (8 * width) := by
  induction width generalizing number with
  | zero => exact (Nat.mod_one number).symm
  | succ width ih =>
    have byte : (UInt8.ofNat (number % 256)).toNat = number % 256 := by
      rw [UInt8.toNat_ofNat']
      omega
    have split : number % (valueCount (8 * width) * 256) =
        number % 256 + 256 * (number / 256 % valueCount (8 * width)) := by
      rw [Nat.mul_comm, Nat.mod_mul]
    rw [ofNat, value_append_byte, ih, byte, valueCount_bytes, split]
    omega

/-- **Bytes are what their number is written as.** -/
theorem ofNat_value (bytes : List UInt8) : ofNat bytes.length (value bytes) = bytes := by
  induction bytes using List.reverseRecOn with
  | nil => rfl
  | append_singleton bytes byte ih =>
    have bound := byte.toNat_lt
    have high : (value bytes * 256 + byte.toNat) / 256 = value bytes := by omega
    have low : (value bytes * 256 + byte.toNat) % 256 = byte.toNat := by omega
    rw [value_append_byte, List.length_append, List.length_singleton, ofNat, high, low, ih,
      UInt8.ofNat_toNat]

/-- **The bits of a number are the bits of its bytes**, eight for each byte from the last on. -/
theorem testBit_value {bytes : List UInt8} {index bit : Nat} {byte : UInt8}
    (found : bytes[index]? = some byte) (small : bit < 8) :
    (value bytes).testBit (8 * (bytes.length - 1 - index) + bit) = byte.toNat.testBit bit := by
  induction bytes using List.reverseRecOn with
  | nil => cases found
  | append_singleton bytes last ih =>
    have digit : last.toNat < 2 ^ 8 := last.toNat_lt
    have split : value bytes * 256 + last.toNat = 2 ^ 8 * value bytes + last.toNat := by omega
    rw [value_append_byte, split, Nat.testBit_two_pow_mul_add _ digit, List.length_append,
      List.length_singleton]
    by_cases before : index < bytes.length
    · rw [List.getElem?_append_left before] at found
      have place : 8 * (bytes.length + 1 - 1 - index) + bit - 8 =
          8 * (bytes.length - 1 - index) + bit := by omega
      rw [if_neg (by omega), place, ih found]
    · rw [List.getElem?_append_right (by omega), List.getElem?_singleton] at found
      have isLast : index - bytes.length = 0 := by
        by_contra further
        rw [if_neg further] at found
        cases found
      have place : 8 * (bytes.length + 1 - 1 - index) + bit = bit := by omega
      rw [if_pos isLast] at found
      cases found
      rw [place, if_pos small]

/-! ### Stretches -/

theorem getElem?_slice (buffer : Array UInt8) (offset length index : Nat) :
    (slice buffer offset length)[index]? =
      if index < length then buffer[offset + index]? else none := by
  rw [slice, Array.getElem?_toList, Array.getElem?_extract]
  by_cases inside : index < length
  · rw [if_pos inside]
    split
    · rfl
    · rw [Array.getElem?_eq_none (by omega)]
  · rw [if_neg inside, if_neg (by omega)]

theorem length_slice (buffer : Array UInt8) (offset length : Nat)
    (fits : offset + length ≤ buffer.size) : (slice buffer offset length).length = length := by
  rw [slice, Array.length_toList, Array.size_extract]
  omega

/-- A stretch that reads in full lies inside the buffer. -/
theorem fits_of_length_slice {buffer : Array UInt8} {offset length : Nat}
    (full : (slice buffer offset length).length = length) (positive : 0 < length) :
    offset + length ≤ buffer.size := by
  rw [slice, Array.length_toList, Array.size_extract] at full
  omega

theorem slice_eq_take_drop (buffer : Array UInt8) (offset length : Nat) :
    slice buffer offset length = (buffer.toList.drop offset).take length := by
  rw [slice, Array.toList_extract, List.extract_eq_take_drop, Nat.add_sub_cancel_left]

/-- A stretch is made of its first bytes and the ones behind them. -/
theorem slice_add (buffer : Array UInt8) (offset first second : Nat) :
    slice buffer offset (first + second) =
      slice buffer offset first ++ slice buffer (offset + first) second := by
  simp only [slice_eq_take_drop, List.take_add, List.drop_drop]

/-- The bytes from an offset on begin with a stretch. -/
theorem drop_eq_slice_append (buffer : Array UInt8) (offset length : Nat) :
    buffer.toList.drop offset =
      slice buffer offset length ++ buffer.toList.drop (offset + length) := by
  rw [slice_eq_take_drop, ← List.drop_drop, List.take_append_drop]

/-- Stretches with the same bytes are the same. -/
theorem slice_congr {first second : Array UInt8} {offset other length : Nat}
    (same : ∀ index < length, first[offset + index]? = second[other + index]?) :
    slice first offset length = slice second other length := by
  refine List.ext_getElem? fun index => ?_
  rw [getElem?_slice, getElem?_slice]
  split
  · rename_i inside
    exact same index inside
  · rfl

/-- A stretch that was written reads as it was written. -/
theorem slice_write_self (buffer : Array UInt8) (offset : Nat) (bytes : List UInt8)
    (fits : offset + bytes.length ≤ buffer.size) :
    slice (write buffer offset bytes) offset bytes.length = bytes := by
  refine List.ext_getElem? fun index => ?_
  rw [getElem?_slice]
  split
  · rw [getElem?_write _ _ _ fits, if_pos (by omega), Nat.add_sub_cancel_left]
  · rw [List.getElem?_eq_none (by omega)]

/-- A byte outside of a written stretch is kept. -/
theorem getElem?_write_of_apart (buffer : Array UInt8) (offset : Nat) (bytes : List UInt8)
    (fits : offset + bytes.length ≤ buffer.size) {index : Nat}
    (apart : index < offset ∨ offset + bytes.length ≤ index) :
    (write buffer offset bytes)[index]? = buffer[index]? := by
  rw [getElem?_write _ _ _ fits, if_neg (by omega)]

/-- A write behind some bytes replaces the ones that follow them. -/
theorem toList_write {buffer : Array UInt8} {done rest bytes : List UInt8}
    (holds : buffer.toList = done ++ rest) (fits : bytes.length ≤ rest.length) :
    (write buffer done.length bytes).toList = done ++ bytes ++ rest.drop bytes.length := by
  induction bytes generalizing buffer done rest with
  | nil => rw [write, holds, List.append_nil, List.length_nil, List.drop_zero]
  | cons byte bytes ih =>
    cases rest with
    | nil => simp at fits
    | cons old rest =>
      have next : (buffer.setIfInBounds done.length byte).toList = (done ++ [byte]) ++ rest := by
        rw [Array.toList_setIfInBounds, holds, List.set_append_right _ _ (Nat.le_refl _),
          Nat.sub_self, List.set_cons_zero, List.append_assoc, List.singleton_append]
      have length : done.length + 1 = (done ++ [byte]).length := by
        rw [List.length_append, List.length_singleton]
      rw [write, length, ih next (Nat.le_of_succ_le_succ fits), List.append_assoc done,
        List.singleton_append, List.length_cons, List.drop_succ_cons]

/-- A part of a buffer reads as it stands there. -/
theorem slice_of_append {buffer : Array UInt8} {before part after : List UInt8}
    (holds : buffer.toList = before ++ part ++ after) :
    slice buffer before.length part.length = part := by
  refine List.ext_getElem? fun index => ?_
  rw [getElem?_slice, ← Array.getElem?_toList, holds, List.append_assoc]
  split
  · rw [List.getElem?_append_right (Nat.le_add_right _ _), Nat.add_sub_cancel_left,
      List.getElem?_append_left (by assumption)]
  · rw [List.getElem?_eq_none (by omega)]

/-- The byte behind a stretch can be written before the stretch. -/
theorem write_concat (buffer : Array UInt8) (offset : Nat) (bytes : List UInt8) (last : UInt8) :
    write buffer offset (bytes ++ [last]) =
      write (buffer.setIfInBounds (offset + bytes.length) last) offset bytes := by
  induction bytes generalizing buffer offset with
  | nil => rfl
  | cons byte rest ih =>
    have behind : offset + 1 + rest.length = offset + (byte :: rest).length := by
      rw [List.length_cons]
      omega
    have apart : offset ≠ offset + (byte :: rest).length := by
      rw [List.length_cons]
      omega
    rw [List.cons_append, write, ih, behind, Array.setIfInBounds_comm _ _ apart]
    rfl

/-- Writing behind other bytes leaves those alone. -/
theorem write_append (before code : Array UInt8) (offset : Nat) (bytes : List UInt8) :
    write (before ++ code) (offset + before.size) bytes = before ++ write code offset bytes := by
  induction bytes generalizing code offset with
  | nil => rfl
  | cons byte rest ih =>
    have next : offset + before.size + 1 = offset + 1 + before.size := by omega
    rw [write, Array.setIfInBounds_append_right (by omega), Nat.add_sub_cancel, next, ih]
    rfl

/-- A stretch behind other bytes reads as without them. -/
theorem slice_append (before code : Array UInt8) (offset length : Nat) :
    slice (before ++ code) (offset + before.size) length = slice code offset length := by
  refine slice_congr fun index _ => ?_
  have place : offset + before.size + index - before.size = offset + index := by omega
  rw [Array.getElem?_append_right (by omega), place]

/-! ### Agreement -/

/-- The buffer `large` holds the first `limit` bytes of `small` from `distance` on. -/
def Agree (large : Array UInt8) (distance : Nat) (small : Array UInt8) (limit : Nat) : Prop :=
  ∀ index < limit, large[distance + index]? = small[index]?

namespace Agree

variable {large small : Array UInt8} {distance limit : Nat}

theorem slice (agree : Agree large distance small limit) {offset length : Nat}
    (inside : offset + length ≤ limit) :
    Bytes.slice large (distance + offset) length = Bytes.slice small offset length :=
  slice_congr fun index bound => by
    rw [Nat.add_assoc]
    exact agree (offset + index) (by omega)

/-- Writing the same bytes at the same place keeps the agreement. -/
theorem write (agree : Agree large distance small limit) {offset : Nat} {bytes : List UInt8}
    (smallFits : offset + bytes.length ≤ small.size)
    (largeFits : distance + offset + bytes.length ≤ large.size) :
    Agree (Bytes.write large (distance + offset) bytes) distance
      (Bytes.write small offset bytes) limit := by
  intro index bound
  rw [getElem?_write _ _ _ largeFits, getElem?_write _ _ _ smallFits]
  by_cases here : offset ≤ index ∧ index < offset + bytes.length
  · rw [if_pos here, if_pos (by omega), Nat.add_sub_add_left]
  · rw [if_neg here, if_neg (by omega)]
    exact agree index bound

/-- Changing the larger buffer outside of the agreement keeps it. -/
theorem of_kept (agree : Agree large distance small limit) {changed : Array UInt8}
    (kept : ∀ index, distance ≤ index → index < distance + limit →
      changed[index]? = large[index]?) : Agree changed distance small limit := by
  intro index bound
  rw [kept _ (by omega) (by omega)]
  exact agree index bound

/-- A buffer that a whole buffer was written into agrees with it. -/
theorem of_write (buffer part : Array UInt8) (fits : distance + part.size ≤ buffer.size) :
    Agree (Bytes.write buffer distance part.toList) distance part part.size := by
  intro index bound
  have inside : distance ≤ distance + index ∧ distance + index < distance + part.toList.length := by
    rw [Array.length_toList]
    omega
  rw [getElem?_write _ _ _ (by simpa using fits), if_pos inside, Nat.add_sub_cancel_left,
    Array.getElem?_toList]

end Agree

end Bytes

end Sicxe
