/-!
# Byte strings

Numbers as big-endian byte strings, and byte strings inside a larger buffer.

* `Bytes.value` reads a byte string as a number, `Bytes.ofNat` writes the low bytes of one.
* `Bytes.slice` reads a stretch of a buffer and `Bytes.write` replaces one: `getElem?_write` tells
  every byte of the result.
* `Bytes.runs` picks out the stretches of a buffer that hold anything but zeros.
-/

namespace Sicxe.Bytes

/-- The number that a byte string spells, its first byte being the most significant. -/
def value (bytes : List UInt8) : Nat :=
  bytes.foldl (fun number byte => number * 256 + byte.toNat) 0

/-- The low `width` bytes of a number, the most significant first. -/
def ofNat : Nat → Nat → List UInt8
  | 0, _ => []
  | width + 1, number => ofNat width (number / 256) ++ [UInt8.ofNat (number % 256)]

theorem length_ofNat (width number : Nat) : (ofNat width number).length = width := by
  induction width generalizing number with
  | zero => rfl
  | succ width ih => rw [ofNat, List.length_append, ih, List.length_singleton]

/-- The `length` bytes of a buffer from `offset` on, fewer where the buffer ends. -/
def slice (buffer : Array UInt8) (offset length : Nat) : List UInt8 :=
  (buffer.extract offset (offset + length)).toList

/-- The buffer with `bytes` put at `offset`; bytes past its end are dropped. -/
def write (buffer : Array UInt8) (offset : Nat) : List UInt8 → Array UInt8
  | [] => buffer
  | byte :: rest => write (buffer.setIfInBounds offset byte) (offset + 1) rest

theorem size_write (buffer : Array UInt8) (offset : Nat) (bytes : List UInt8) :
    (write buffer offset bytes).size = buffer.size := by
  induction bytes generalizing buffer offset with
  | nil => rfl
  | cons byte rest ih => simp [write, ih]

/-- **A written buffer holds the new bytes in their range and the old ones elsewhere.** -/
theorem getElem?_write (buffer : Array UInt8) (offset : Nat) (bytes : List UInt8)
    (fits : offset + bytes.length ≤ buffer.size) (index : Nat) :
    (write buffer offset bytes)[index]? =
      if offset ≤ index ∧ index < offset + bytes.length then bytes[index - offset]?
      else buffer[index]? := by
  induction bytes generalizing buffer offset with
  | nil => rw [if_neg (by simp only [List.length_nil]; omega), write]
  | cons byte rest ih =>
    simp only [List.length_cons] at fits
    rw [write, ih _ _ (by rw [Array.size_setIfInBounds]; omega)]
    simp only [List.length_cons, Array.getElem?_setIfInBounds]
    by_cases here : index = offset
    · subst here
      rw [if_neg (by omega), if_pos rfl, if_pos (by omega), if_pos (by omega), Nat.sub_self,
        List.getElem?_cons_zero]
    · by_cases inside : offset + 1 ≤ index ∧ index < offset + 1 + rest.length
      · rw [if_pos inside, if_pos (by omega)]
        rw [show index - offset = (index - (offset + 1)) + 1 by omega]
        simp
      · rw [if_neg inside, if_neg (by omega), if_neg (by omega)]

/-- The maximal runs of bytes other than zero in a buffer, with their offsets. -/
def runs (buffer : Array UInt8) : List (Nat × List UInt8) :=
  let pieces := buffer.toList.zipIdx.splitBy fun left right => (left.1 == 0) == (right.1 == 0)
  pieces.filterMap fun piece =>
    match piece with
    | (byte, offset) :: _ => if byte = 0 then none else some (offset, piece.map (·.1))
    | [] => none

end Sicxe.Bytes
