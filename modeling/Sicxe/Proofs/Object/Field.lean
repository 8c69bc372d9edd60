import Sicxe.Object.Fixup
import Sicxe.Proofs.Bytes

/-!
# One field under a fix-up

* `Relocation.apply_eq_ok_iff`: when a field can be resolved, and what the code becomes.
* `Relocation.raw_put`: the half bytes of a field take the new value, the bits above them stay.
* `Relocation.getElem?_put`: the bytes outside of the field stay.
* `Relocation.advance`, `Relocation.resolve_shifted_iff`: a shifted record is resolved as the record
  itself, for an origin as much further on as the instruction of a displacement moves. With a field
  in the first byte the instruction is taken to begin there too, and it moves one byte less.
* `Relocation.apply_shifted_iff`: a field of a module that lies in a larger image is resolved there
  as in the module itself, the image beginning as much earlier as the module lies behind.
-/

namespace Sicxe.Relocation

/-- The byte at an index belongs to the field of a record. -/
def Covers (record : Relocation) (index : Nat) : Prop :=
  record.offset ≤ index ∧ index < record.offset + record.length

instance (record : Relocation) (index : Nat) : Decidable (record.Covers index) :=
  inferInstanceAs (Decidable (_ ∧ _))

/-- The half bytes of the field are in its bytes. -/
def Fits (record : Relocation) : Prop :=
  record.halfBytes ≤ 2 * record.length

/-- A displacement has a byte of its instruction in front of it. -/
def HasInstruction (record : Relocation) : Prop :=
  record.relative = true → 1 ≤ record.offset

variable {record : Relocation} {code small large : Array UInt8}
variable {address origin distance limit value : Nat}

/-! ### Success -/

theorem apply_of_inside (inside : record.inside code.size) :
    record.apply code address origin =
      (record.resolve (record.field code) address origin).map (record.put code) := by
  rw [apply, if_pos inside]
  cases record.resolve (record.field code) address origin <;> rfl

/-- **A fix-up succeeds when the field is inside the code and its value can be resolved**, and
then it puts that value into the field. -/
theorem apply_eq_ok_iff {fixed : Array UInt8} :
    record.apply code address origin = .ok fixed ↔
      record.inside code.size ∧
        ∃ value, record.resolve (record.field code) address origin = .ok value ∧
          fixed = record.put code value := by
  constructor
  · intro applied
    by_cases inside : record.inside code.size
    · refine ⟨inside, ?_⟩
      rw [apply_of_inside inside] at applied
      cases resolved : record.resolve (record.field code) address origin with
      | ok value =>
        rw [resolved] at applied
        cases applied
        exact ⟨value, rfl, rfl⟩
      | error error =>
        rw [resolved] at applied
        cases applied
    · rw [apply, if_neg inside] at applied
      cases applied
  · rintro ⟨inside, value, resolved, rfl⟩
    rw [apply_of_inside inside, resolved]
    rfl

theorem capacity_pos (record : Relocation) : 0 < record.capacity :=
  valueCount_pos _

/-- The half bytes of a field and the bits above them are told apart by the capacity. -/
theorem capacity_split (record : Relocation) (high : Nat) {low : Nat}
    (small : low < record.capacity) :
    (high * record.capacity + low) / record.capacity = high ∧
      (high * record.capacity + low) % record.capacity = low := by
  rw [Nat.mul_comm]
  constructor
  · rw [Nat.mul_add_div record.capacity_pos, Nat.div_eq_of_lt small, Nat.add_zero]
  · rw [Nat.mul_add_mod, Nat.mod_eq_of_lt small]

/-- What is read where the bits above a field and its half bytes were written. -/
theorem raw_of_slice {high low : Nat}
    (holds : Bytes.slice code record.offset record.length =
      Bytes.ofNat record.length (high * record.capacity + low))
    (small : low < record.capacity)
    (room : high * record.capacity + record.capacity ≤ valueCount (8 * record.length)) :
    record.raw code = high * record.capacity + low := by
  rw [raw, holds, Bytes.value_ofNat, Nat.mod_eq_of_lt (by omega)]

/-- How far a symbol at `address`, with the addend of a field, lies behind the end of the
instruction of a displacement. -/
def distanceTo (record : Relocation) (field address origin : Nat) : Int :=
  signExtend (4 * record.halfBytes) field + address -
    (origin + record.instruction + relativeInstructionLength : Nat)

/-- A displacement counts from the end of its instruction, which begins one byte before it. -/
theorem distanceTo_displacement {field : Nat} (bits : record.halfBytes = 3)
    (behind : 1 ≤ record.offset) :
    record.distanceTo field address origin =
      signExtend 12 field + address - ((origin : Int) + record.offset - 1 + 3) := by
  have afterwards : ((origin + record.instruction + relativeInstructionLength : Nat) : Int) =
      (origin : Int) + record.offset - 1 + 3 := by
    rw [instruction, relativeInstructionLength]
    omega
  rw [distanceTo, bits, afterwards]

/-- **A displacement is resolved when it fits 12 bits.** -/
theorem resolve_relative_iff (relative : record.relative = true) {field : Nat} :
    record.resolve field address origin = .ok value ↔
      (-2048 ≤ record.distanceTo field address origin ∧
        record.distanceTo field address origin ≤ 2047) ∧
        value = (record.distanceTo field address origin % record.capacity).toNat := by
  rw [resolve, if_pos relative]
  by_cases near : -2048 ≤ record.distanceTo field address origin ∧
      record.distanceTo field address origin ≤ 2047
  · unfold distanceTo at near ⊢
    simp only [near, and_self, if_true, true_and, Except.ok.injEq]
    exact eq_comm
  · unfold distanceTo at near ⊢
    simp only [near, if_false, false_and, reduceCtorEq]

/-- **An address is resolved when its sum with the field fits the half bytes.** -/
theorem resolve_absolute_iff (absolute : record.relative = false) {field : Nat} :
    record.resolve field address origin = .ok value ↔
      field + address < record.capacity ∧ value = field + address := by
  rw [resolve, absolute, if_neg Bool.false_ne_true]
  by_cases room : field + address < record.capacity
  · simp only [room, if_true, true_and, Except.ok.injEq]
    exact eq_comm
  · simp only [room, if_false, false_and, reduceCtorEq]

/-- A resolved value is one that the half bytes can hold. -/
theorem resolve_lt {field : Nat} (resolved : record.resolve field address origin = .ok value) :
    value < record.capacity := by
  cases relative : record.relative with
  | false =>
    obtain ⟨room, rfl⟩ := (resolve_absolute_iff relative).mp resolved
    exact room
  | true =>
    obtain ⟨_, rfl⟩ := (resolve_relative_iff relative).mp resolved
    have positive := record.capacity_pos
    have := Int.emod_lt_of_pos (record.distanceTo field address origin)
      (b := (record.capacity : Int)) (by omega)
    omega

/-! ### The field afterwards -/

/-- The bytes of the field hold a multiple of the values of its half bytes. -/
theorem valueCount_length (fits : record.Fits) :
    valueCount (8 * record.length) =
      record.capacity * valueCount (8 * record.length - 4 * record.halfBytes) := by
  unfold Fits at fits
  rw [capacity, ← valueCount_add]
  congr 1
  omega

theorem raw_lt (inside : record.inside code.size) :
    record.raw code < valueCount (8 * record.length) := by
  have bound := Bytes.value_lt (Bytes.slice code record.offset record.length)
  rw [Bytes.length_slice _ _ _ inside.2.2] at bound
  exact bound

theorem put_lt (fits : record.Fits) (inside : record.inside code.size)
    (small : value < record.capacity) :
    record.raw code / record.capacity * record.capacity + value <
      valueCount (8 * record.length) := by
  have high : record.raw code / record.capacity <
      valueCount (8 * record.length - 4 * record.halfBytes) := by
    rw [Nat.div_lt_iff_lt_mul record.capacity_pos, Nat.mul_comm, ← valueCount_length fits]
    exact raw_lt inside
  calc record.raw code / record.capacity * record.capacity + value
      < (record.raw code / record.capacity + 1) * record.capacity := by
        rw [Nat.add_mul, Nat.one_mul]
        omega
    _ ≤ valueCount (8 * record.length - 4 * record.halfBytes) * record.capacity :=
        Nat.mul_le_mul_right _ high
    _ = valueCount (8 * record.length) := by rw [Nat.mul_comm, ← valueCount_length fits]

theorem length_put_bytes (record : Relocation) (number : Nat) :
    (Bytes.ofNat record.length number).length = record.length :=
  Bytes.length_ofNat _ _

/-- What a field reads after a value was put into it, as far as its bytes can hold it. -/
theorem raw_put_eq_mod (inside : record.inside code.size) (value : Nat) :
    record.raw (record.put code value) =
      (record.raw code / record.capacity * record.capacity + value) %
        valueCount (8 * record.length) := by
  have read := Bytes.slice_write_self code record.offset
    (Bytes.ofNat record.length (record.raw code / record.capacity * record.capacity + value))
    (by rw [length_put_bytes]; exact inside.2.2)
  rw [length_put_bytes] at read
  show Bytes.value (Bytes.slice (record.put code value) record.offset record.length) = _
  rw [put, read, Bytes.value_ofNat]

/-- **The half bytes take the value and the bits above them stay.** -/
theorem raw_put (fits : record.Fits) (inside : record.inside code.size)
    (small : value < record.capacity) :
    record.raw (record.put code value) =
      record.raw code / record.capacity * record.capacity + value := by
  rw [raw_put_eq_mod inside, Nat.mod_eq_of_lt (put_lt fits inside small)]

/-- **A byte outside of the field stays.** -/
theorem getElem?_put (inside : record.inside code.size) {index : Nat}
    (outside : ¬ record.Covers index) : (record.put code value)[index]? = code[index]? := by
  unfold Covers at outside
  rw [put, Bytes.getElem?_write_of_apart]
  · rw [length_put_bytes]
    exact inside.2.2
  · rw [length_put_bytes]
    omega

/-! ### A field in a larger image -/

theorem raw_shifted (agree : Bytes.Agree large distance small limit)
    (inside : record.inside limit) : (record.shifted distance).raw large = record.raw small := by
  show Bytes.value (Bytes.slice large (record.offset + distance) record.length) = _
  rw [Nat.add_comm, agree.slice inside.2.2]
  rfl

theorem field_shifted (agree : Bytes.Agree large distance small limit)
    (inside : record.inside limit) :
    (record.shifted distance).field large = record.field small := by
  rw [field, raw_shifted agree inside]
  rfl

theorem put_shifted (agree : Bytes.Agree large distance small limit)
    (inside : record.inside limit) (smallFits : limit ≤ small.size)
    (largeFits : distance + limit ≤ large.size) :
    Bytes.Agree ((record.shifted distance).put large value) distance (record.put small value)
      limit := by
  have bound := inside.2.2
  have same : (record.shifted distance).put large value = Bytes.write large
      (distance + record.offset) (Bytes.ofNat record.length
        (record.raw small / record.capacity * record.capacity + value)) := by
    rw [put, raw_shifted agree inside, Nat.add_comm distance]
    rfl
  rw [same, put]
  refine agree.write ?_ ?_
  · rw [length_put_bytes]
    omega
  · rw [length_put_bytes]
    omega

theorem inside_shifted (inside : record.inside limit)
    (largeFits : distance + limit ≤ large.size) :
    (record.shifted distance).inside large.size := by
  obtain ⟨least, greatest, bound⟩ := inside
  refine ⟨least, greatest, ?_⟩
  show record.offset + distance + record.length ≤ large.size
  omega

theorem inside_mono {size larger : Nat} (inside : record.inside size) (le : size ≤ larger) :
    record.inside larger :=
  ⟨inside.1, inside.2.1, Nat.le_trans inside.2.2 le⟩

/-- A record whose field lies inside code of at most 2 ^ 32 bytes has an offset of 32 bits. -/
theorem addressable_of_inside {size : Nat} (inside : record.inside size)
    (small : size ≤ Numeral.wordBound) : record.Addressable := by
  obtain ⟨least, _, bound⟩ := inside
  unfold Addressable
  omega

/-- How far the instruction of a displacement moves along when its field is shifted. -/
def advance (record : Relocation) (distance : Nat) : Nat :=
  (record.shifted distance).instruction - record.instruction

/-- The instruction moves as far as its field when there is a byte in front of the field. -/
theorem advance_of_behind (behind : distance = 0 ∨ 1 ≤ record.offset) :
    record.advance distance = distance := by
  show record.offset + distance - 1 - (record.offset - 1) = distance
  omega

/-- The instruction of a field in the first byte lags behind. -/
theorem advance_of_first (first : record.offset = 0) :
    record.advance distance = distance - 1 := by
  show record.offset + distance - 1 - (record.offset - 1) = distance - 1
  omega

/-- **A shifted record is resolved as the record itself**, for an origin as much further on as the
instruction has moved. -/
theorem resolve_shifted_iff {field : Nat} :
    (record.shifted distance).resolve field address origin = .ok value ↔
      record.resolve field address (origin + record.advance distance) = .ok value := by
  cases kind : record.relative with
  | false =>
    rw [resolve_absolute_iff kind,
      resolve_absolute_iff (show (record.shifted distance).relative = false from kind)]
    rfl
  | true =>
    have begins : origin + (record.shifted distance).instruction =
        origin + record.advance distance + record.instruction := by
      show origin + (record.offset + distance - 1) =
        origin + (record.offset + distance - 1 - (record.offset - 1)) + (record.offset - 1)
      omega
    have same : (record.shifted distance).distanceTo field address origin =
        record.distanceTo field address (origin + record.advance distance) := by
      rw [distanceTo, distanceTo, begins]
      rfl
    rw [resolve_relative_iff kind,
      resolve_relative_iff (show (record.shifted distance).relative = true from kind), same]
    rfl

/-- A shifted record is resolved as the record itself is for code placed further on. -/
theorem resolve_shifted {field : Nat} (placed : distance = 0 ∨ record.HasInstruction) :
    (record.shifted distance).resolve field address origin = .ok value ↔
      record.resolve field address (origin + distance) = .ok value := by
  rw [resolve_shifted_iff]
  cases kind : record.relative with
  | false => rw [resolve_absolute_iff kind, resolve_absolute_iff kind]
  | true => rw [advance_of_behind (placed.imp_right fun behind => behind kind)]

/-- **A field is fixed up in a larger image exactly when it is in the module itself**, and the
image then holds the fixed module. -/
theorem apply_shifted_iff (agree : Bytes.Agree large distance small limit)
    (inside : record.inside limit) (smallFits : limit ≤ small.size)
    (largeFits : distance + limit ≤ large.size)
    (placed : distance = 0 ∨ record.HasInstruction) :
    (∃ image, (record.shifted distance).apply large address origin = .ok image) ↔
      ∃ fixed, record.apply small address (origin + distance) = .ok fixed := by
  simp only [apply_eq_ok_iff, field_shifted agree inside, resolve_shifted placed]
  constructor
  · rintro ⟨_, _, value, resolved, rfl⟩
    exact ⟨_, inside_mono inside smallFits, value, resolved, rfl⟩
  · rintro ⟨_, _, value, resolved, rfl⟩
    exact ⟨_, inside_shifted inside largeFits, value, resolved, rfl⟩

/-- A fixed up image holds the fixed module. -/
theorem apply_shifted_agree (agree : Bytes.Agree large distance small limit)
    (inside : record.inside limit) (smallFits : limit ≤ small.size)
    (largeFits : distance + limit ≤ large.size)
    (placed : distance = 0 ∨ record.HasInstruction) {image fixed : Array UInt8}
    (inImage : (record.shifted distance).apply large address origin = .ok image)
    (inModule : record.apply small address (origin + distance) = .ok fixed) :
    Bytes.Agree image distance fixed limit := by
  simp only [apply_eq_ok_iff, field_shifted agree inside, resolve_shifted placed] at inImage
  simp only [apply_eq_ok_iff] at inModule
  obtain ⟨_, first, resolvedFirst, rfl⟩ := inImage
  obtain ⟨_, second, resolvedSecond, rfl⟩ := inModule
  have same : first = second := Except.ok.inj (resolvedFirst.symm.trans resolvedSecond)
  subst same
  exact put_shifted agree inside smallFits largeFits

end Sicxe.Relocation
