import Sicxe.Proofs.Object.Field
import Sicxe.Proofs.Success

/-!
# A fix-up in place

A field can also be fixed up in place: it is looked for in the code, its value is read and resolved,
and its bytes are stored one after another, the last one first. `applyInPlace` is written in that
way. It can stop at three points, and none of them lies behind the first byte that is stored.

* `Bytes.store_eq`: storing the bytes of a number one by one comes to writing them.
* `Relocation.applyInPlace_eq`: a fix-up in place comes to the code that `apply` works out, and a
  failure comes to the code as it was.
* `Relocation.target`, `Relocation.resolve_eq`: what a field is to hold, as one number, and the
  field is resolved exactly when it can hold it.
* `Relocation.bitAt_eq`: the bits of the bytes of a field are the bits of one number.
* `Relocation.Patched`: every bit of the code after a fix-up. `Patched.unique` says that no other
  code is like that.
* `Relocation.applyInPlace_effect`: **when a fix-up succeeds, and all that it does.**
-/

namespace Sicxe

namespace Bytes

/-- A computation that changes a buffer as it goes. What it has changed before it fails stays
changed. -/
abbrev Patching : Type → Type :=
  ExceptT ObjectError (StateM (Array UInt8))

/-- Puts the low `width` bytes of a number at an offset, beginning with the last one. -/
def store (offset : Nat) : Nat → Nat → Patching Unit
  | 0, _ => pure ()
  | width + 1, number => do
    modify fun code => code.setIfInBounds (offset + width) (UInt8.ofNat (number % 256))
    store offset width (number / 256)

/-- **Storing the bytes of a number one by one comes to writing them.** -/
theorem store_eq (code : Array UInt8) (offset width number : Nat) :
    store offset width number code = (.ok (), write code offset (ofNat width number)) := by
  induction width generalizing code number with
  | zero => rfl
  | succ width ih =>
    -- `write` goes from the first byte on, so the last byte has to be moved to the front.
    rw [ofNat, write_concat, length_ofNat]
    exact ih _ _

/-- A bit of the byte at an index. -/
def bitAt (buffer : Array UInt8) (index bit : Nat) : Option Bool :=
  buffer[index]?.map fun byte => byte.toNat.testBit bit

/-- Bytes with the same bits are the same. -/
theorem byte_eq_of_testBit {first second : UInt8}
    (same : ∀ bit < 8, first.toNat.testBit bit = second.toNat.testBit bit) : first = second := by
  refine UInt8.toNat_inj.mp (Nat.eq_of_testBit_eq fun bit => ?_)
  by_cases small : bit < 8
  · exact same bit small
  · have beyond : 2 ^ 8 ≤ 2 ^ bit := Nat.pow_le_pow_right (by decide) (by omega)
    rw [Nat.testBit_lt_two_pow (Nat.lt_of_lt_of_le first.toNat_lt beyond),
      Nat.testBit_lt_two_pow (Nat.lt_of_lt_of_le second.toNat_lt beyond)]

/-- A byte of a buffer is known by its bits. -/
theorem getElem?_eq_of_bitAt {first second : Array UInt8} {index : Nat}
    (same : ∀ bit < 8, bitAt first index bit = bitAt second index bit) :
    first[index]? = second[index]? := by
  unfold bitAt at same
  cases isFirst : first[index]? with
  | none =>
    rw [isFirst] at same
    exact (Option.map_eq_none_iff.mp (same 0 (by decide)).symm).symm
  | some byte =>
    rw [isFirst] at same
    cases isSecond : second[index]? with
    | none =>
      rw [isSecond] at same
      cases same 0 (by decide)
    | some other =>
      rw [isSecond] at same
      exact congrArg some (byte_eq_of_testBit fun bit small => Option.some.inj (same bit small))

end Bytes

namespace Relocation

open Bytes (Patching bitAt)

variable {record : Relocation} {code fixed : Array UInt8} {address origin value : Nat}

/-! ### In place -/

/-- Fixes up a field where it stands. -/
def applyInPlace (record : Relocation) (address origin : Nat) : Patching Unit := do
  let code ← get
  if record.inside code.size then
    let raw := record.raw code
    let value ← record.resolve (raw % record.capacity) address origin
    Bytes.store record.offset record.length (raw / record.capacity * record.capacity + value)
  else
    throw (.fieldOutOfRange record.offset record.length code.size)

/-- Code and the result of a fix-up of it. -/
def settle (code : Array UInt8) :
    Except ObjectError (Array UInt8) → Except ObjectError Unit × Array UInt8
  | .ok fixed => (.ok (), fixed)
  | .error error => (.error error, code)

theorem settle_eq_ok_iff {outcome : Except ObjectError (Array UInt8)} :
    settle code outcome = (.ok (), fixed) ↔ outcome = .ok fixed := by
  cases outcome <;> simp [settle]

theorem settle_eq_error_iff {outcome : Except ObjectError (Array UInt8)} {error : ObjectError} :
    settle code outcome = (.error error, fixed) ↔ outcome = .error error ∧ fixed = code := by
  cases outcome <;> simp [settle, eq_comm]

/-- **A fix-up in place comes to the fixed code, or leaves the code as it was.** -/
theorem applyInPlace_eq (record : Relocation) (code : Array UInt8) (address origin : Nat) :
    record.applyInPlace address origin code = settle code (record.apply code address origin) := by
  show (if record.inside code.size then _ else _ : Patching Unit) code = _
  rw [apply]
  -- The code has not been changed yet at any of the points where the fix-up stops.
  by_cases inside : record.inside code.size
  · rw [if_pos inside, if_pos inside]
    show (liftM (record.resolve (record.field code) address origin) >>= _ : Patching Unit) code = _
    cases record.resolve (record.field code) address origin with
    | ok value => exact Bytes.store_eq ..
    | error error => rfl
  · rw [if_neg inside, if_neg inside]
    rfl

/-! ### The value of a field -/

/-- What a field is to hold for a symbol at `address`, in code placed at `origin`. -/
def target (record : Relocation) (code : Array UInt8) (address origin : Nat) : Int :=
  if record.relative then
    signExtend (4 * record.halfBytes) (record.field code) + address -
      (origin + max ((record.offset : Int) - 1) 0 + 3)
  else
    record.field code + address

/-- The values that a field can hold. -/
def Admits (record : Relocation) (value : Int) : Prop :=
  if record.relative then -2048 ≤ value ∧ value ≤ 2047 else value < record.capacity

instance (record : Relocation) (value : Int) : Decidable (record.Admits value) :=
  inferInstanceAs (Decidable
    (if record.relative then -2048 ≤ value ∧ value ≤ 2047 else value < record.capacity))

/-- The error of a field that cannot hold its value. -/
def refusal (record : Relocation) (value : Int) : ObjectError :=
  if record.relative then .displacementRange record.symbol record.offset value
  else .fieldOverflow record.symbol record.offset

theorem target_of_relative (relative : record.relative = true) :
    record.target code address origin =
      record.distanceTo (record.field code) address origin := by
  have afterwards : ((origin + record.instruction + relativeInstructionLength : Nat) : Int) =
      origin + max ((record.offset : Int) - 1) 0 + 3 := by
    rw [instruction, relativeInstructionLength]
    omega
  rw [target, if_pos relative, distanceTo, afterwards]

theorem target_of_absolute (absolute : record.relative = false) :
    record.target code address origin = (record.field code + address : Nat) := by
  rw [target, absolute, if_neg Bool.false_ne_true]
  rfl

theorem admits_iff_of_relative (relative : record.relative = true) {value : Int} :
    record.Admits value ↔ -2048 ≤ value ∧ value ≤ 2047 := by
  rw [Admits, if_pos relative]

theorem admits_iff_of_absolute (absolute : record.relative = false) {value : Int} :
    record.Admits value ↔ value < record.capacity := by
  rw [Admits, absolute, if_neg Bool.false_ne_true]

/-- **A field is resolved when it can hold its value**, and then to that value. -/
theorem resolve_eq (record : Relocation) (code : Array UInt8) (address origin : Nat) :
    record.resolve (record.field code) address origin =
      if record.Admits (record.target code address origin) then
        .ok (record.target code address origin % record.capacity).toNat
      else .error (record.refusal (record.target code address origin)) := by
  cases kind : record.relative with
  | true =>
    rw [resolve, if_pos kind, refusal, if_pos kind, target_of_relative kind]
    simp only [admits_iff_of_relative kind]
    rfl
  | false =>
    rw [resolve, kind, if_neg Bool.false_ne_true, refusal, kind, if_neg Bool.false_ne_true,
      target_of_absolute kind]
    simp only [admits_iff_of_absolute kind, Int.ofNat_lt]
    by_cases room : record.field code + address < record.capacity
    · rw [if_pos room, if_pos room, ← Int.natCast_emod, Int.toNat_natCast, Nat.mod_eq_of_lt room]
    · rw [if_neg room, if_neg room]

/-! ### The bits of a field -/

/-- The place of a bit in the number that the bytes of a field spell. -/
def place (record : Relocation) (index bit : Nat) : Nat :=
  8 * (record.offset + record.length - 1 - index) + bit

/-- **The bits of the bytes of a field are the bits of one number.** -/
theorem bitAt_eq (inside : record.inside code.size) {index bit : Nat}
    (covers : record.Covers index) (small : bit < 8) :
    bitAt code index bit = some ((record.raw code).testBit (record.place index bit)) := by
  obtain ⟨least, greatest⟩ := covers
  have room := inside.2.2
  have here : code[index]? = some code[index] := Array.getElem?_eq_getElem (by omega)
  have found : (Bytes.slice code record.offset record.length)[index - record.offset]? =
      some code[index] := by
    rw [Bytes.getElem?_slice, if_pos (by omega), Nat.add_sub_cancel' least, here]
  have bits := Bytes.testBit_value found small
  rw [Bytes.length_slice _ _ _ room] at bits
  have place : record.place index bit =
      8 * (record.length - 1 - (index - record.offset)) + bit := by
    rw [Relocation.place]
    omega
  rw [raw, place, bits, bitAt, here]
  rfl

/-- **What a fix-up does to code.** The half bytes of the field hold a value, as far as they can,
and every other bit is as before. -/
structure Patched (record : Relocation) (code fixed : Array UInt8) (value : Int) : Prop where
  size : fixed.size = code.size
  field : (record.field fixed : Int) = value % record.capacity
  /-- The bits of the bytes of the field above its half bytes. -/
  above : ∀ index bit, record.Covers index → bit < 8 →
    4 * record.halfBytes ≤ record.place index bit → bitAt fixed index bit = bitAt code index bit
  outside : ∀ index, ¬ record.Covers index → fixed[index]? = code[index]?

/-- The bits of a number above the capacity stay when the ones below are replaced. -/
theorem testBit_above (record : Relocation) (number : Nat) {low bit : Nat}
    (small : low < record.capacity) (above : 4 * record.halfBytes ≤ bit) :
    (number / record.capacity * record.capacity + low).testBit bit = number.testBit bit := by
  have count : record.capacity = 2 ^ (4 * record.halfBytes) := rfl
  rw [count] at small ⊢
  rw [Nat.mul_comm, Nat.testBit_two_pow_mul_add _ small, if_neg (by omega),
    Nat.testBit_div_two_pow, Nat.sub_add_cancel above]

theorem patched_put (fits : record.Fits) (inside : record.inside code.size) (value : Int) :
    record.Patched code (record.put code (value % record.capacity).toNat) value := by
  have positive := record.capacity_pos
  have nonneg : 0 ≤ value % record.capacity := Int.emod_nonneg _ (by omega)
  have below : value % record.capacity < record.capacity := Int.emod_lt_of_pos _ (by omega)
  have small : (value % record.capacity).toNat < record.capacity := by omega
  have written := raw_put fits inside small
  have size : (record.put code (value % record.capacity).toNat).size = code.size :=
    Bytes.size_write ..
  refine ⟨size, ?_, fun index bit covers bound above => ?_, fun index => getElem?_put inside⟩
  · rw [field, written, (record.capacity_split _ small).2]
    exact Int.toNat_of_nonneg nonneg
  · rw [bitAt_eq (size.symm ▸ inside) covers bound, bitAt_eq inside covers bound, written,
      testBit_above record _ small above]

/-- A bit of the half bytes of a field is a bit of their value. -/
theorem testBit_field {bit : Nat} (below : bit < 4 * record.halfBytes) :
    (record.raw code).testBit bit = (record.field code).testBit bit := by
  have count : record.capacity = 2 ^ (4 * record.halfBytes) := rfl
  rw [field, count, Nat.testBit_mod_two_pow, decide_eq_true below, Bool.true_and]

/-- **There is one way to change a field to a value.** -/
theorem Patched.unique {other : Array UInt8} {value : Int} (inside : record.inside code.size)
    (first : record.Patched code fixed value) (second : record.Patched code other value) :
    fixed = other := by
  have sameField : record.field fixed = record.field other :=
    Int.ofNat.inj (first.field.trans second.field.symm)
  refine Array.ext_getElem? fun index => ?_
  by_cases covers : record.Covers index
  · refine Bytes.getElem?_eq_of_bitAt fun bit small => ?_
    by_cases above : 4 * record.halfBytes ≤ record.place index bit
    · rw [first.above index bit covers small above, second.above index bit covers small above]
    · rw [bitAt_eq (first.size.symm ▸ inside) covers small,
        bitAt_eq (second.size.symm ▸ inside) covers small, testBit_field (by omega),
        testBit_field (by omega), sameField]
  · rw [first.outside index covers, second.outside index covers]

/-- The field of a record of at most four bytes is inside the code when the code is long enough. -/
theorem inside_iff (least : 1 ≤ record.length) (greatest : record.length ≤ 4) {size : Nat} :
    record.inside size ↔ record.offset + record.length ≤ size := by
  unfold inside
  simp only [least, greatest, true_and]

/-! ### The effect of a fix-up -/

/-- The reason why a field cannot be fixed up. -/
inductive Refused (record : Relocation) (code : Array UInt8) (address origin : Nat) :
    ObjectError → Prop
  /-- The field is not inside the code. -/
  | outside (beyond : code.size < record.offset + record.length) :
      Refused record code address origin
        (.fieldOutOfRange record.offset record.length code.size)
  /-- The field cannot hold its value. -/
  | unfit (inside : record.offset + record.length ≤ code.size)
      (unfit : ¬ record.Admits (record.target code address origin)) :
      Refused record code address origin (record.refusal (record.target code address origin))

/-- A fix-up of a field inside the code depends on the value of the field only. -/
theorem apply_eq_of_inside (inside : record.inside code.size) :
    record.apply code address origin =
      if record.Admits (record.target code address origin) then
        .ok (record.put code (record.target code address origin % record.capacity).toNat)
      else .error (record.refusal (record.target code address origin)) := by
  rw [apply_of_inside inside, resolve_eq]
  split <;> rfl

section Effect

variable (least : 1 ≤ record.length) (greatest : record.length ≤ 4)

include least greatest

theorem apply_eq_ok_iff_admits :
    record.apply code address origin = .ok fixed ↔
      (record.offset + record.length ≤ code.size ∧
        record.Admits (record.target code address origin)) ∧
      fixed = record.put code (record.target code address origin % record.capacity).toNat := by
  rw [← inside_iff least greatest]
  by_cases inside : record.inside code.size
  · rw [apply_eq_of_inside inside]
    by_cases admits : record.Admits (record.target code address origin)
    · simp only [inside, admits, if_true, true_and, Except.ok.injEq]
      exact eq_comm
    · simp only [admits, if_false, and_false, false_and, reduceCtorEq]
  · rw [apply, if_neg inside]
    simp only [inside, false_and, reduceCtorEq]

theorem apply_eq_error_iff_refused {error : ObjectError} :
    record.apply code address origin = .error error ↔
      record.Refused code address origin error := by
  constructor
  · intro failed
    by_cases room : record.offset + record.length ≤ code.size
    · rw [apply_eq_of_inside ((inside_iff least greatest).mpr room)] at failed
      split at failed
      · cases failed
      · cases failed
        exact .unfit room ‹_›
    · rw [apply, if_neg fun inside => room inside.2.2] at failed
      cases failed
      exact .outside (by omega)
  · rintro (beyond | ⟨room, unfit⟩)
    · rw [apply, if_neg fun inside => by have := inside.2.2; omega]
    · rw [apply_eq_of_inside ((inside_iff least greatest).mpr room), if_neg unfit]

end Effect

/-- **When a fix-up succeeds, and all that it does.** A fix-up succeeds exactly when the field is
inside the code and can hold its value: an address with the field added to it that the half bytes
can spell, or a distance from the end of the instruction, with the field as a signed addend, that 12
bits can. The half bytes of the field then hold that value and every other bit of the code is as
before. A fix-up that fails leaves the code as it was, also where it is made in place. -/
theorem applyInPlace_effect (record : Relocation) (code : Array UInt8) (address origin : Nat)
    (least : 1 ≤ record.length) (greatest : record.length ≤ 4) (fits : record.Fits) :
    (∀ fixed, record.applyInPlace address origin code = (.ok (), fixed) ↔
        record.apply code address origin = .ok fixed) ∧
      ((∃ fixed, record.apply code address origin = .ok fixed) ↔
        record.offset + record.length ≤ code.size ∧
          record.Admits (record.target code address origin)) ∧
      (∀ fixed, record.apply code address origin = .ok fixed ↔
        (record.offset + record.length ≤ code.size ∧
          record.Admits (record.target code address origin)) ∧
        record.Patched code fixed (record.target code address origin)) ∧
      (∀ error, record.apply code address origin = .error error ↔
        record.Refused code address origin error) ∧
      ∀ error after, record.applyInPlace address origin code = (.error error, after) →
        record.apply code address origin = .error error ∧ after = code := by
  rw [applyInPlace_eq]
  refine ⟨fun fixed => settle_eq_ok_iff, ?_, fun fixed => ?_,
    fun error => apply_eq_error_iff_refused least greatest, fun error after => settle_eq_error_iff.mp⟩
  · simp only [apply_eq_ok_iff_admits least greatest, exists_and_left, exists_eq, and_true]
  · rw [apply_eq_ok_iff_admits least greatest]
    refine and_congr_right fun ⟨room, _⟩ => ?_
    have inside := (inside_iff least greatest).mpr room
    constructor
    · rintro rfl
      exact patched_put fits inside _
    · exact fun patched => patched.unique inside (patched_put fits inside _)

/-- A displacement with the addend -2 is fixed up for a symbol at 40; for one at 3000 it is too far
away, and the code stays. -/
theorem applyInPlace_effect_displacement :
    (∃ fixed, (displacement 0 "EXT").applyInPlace 0x40 0 #[0x03, 0x2F, 0xFE] = (.ok (), fixed) ∧
        (displacement 0 "EXT").Patched #[0x03, 0x2F, 0xFE] fixed 0x3B ∧
        fixed = #[0x03, 0x20, 0x3B]) ∧
      (displacement 0 "EXT").Refused #[0x03, 0x2F, 0xFE] 0x3000 0
        (.displacementRange "EXT" 1 0x2FFB) ∧
      ∀ error after,
        (displacement 0 "EXT").applyInPlace 0x3000 0 #[0x03, 0x2F, 0xFE] = (.error error, after) →
          after = #[0x03, 0x2F, 0xFE] := by
  have fits : (displacement 0 "EXT").Fits := show 3 ≤ 2 * 2 by decide
  obtain ⟨inPlace, succeeds, effect, _, _⟩ :=
    applyInPlace_effect (displacement 0 "EXT") #[0x03, 0x2F, 0xFE] 0x40 0 (by decide) (by decide)
      fits
  obtain ⟨_, _, _, fails, stays⟩ :=
    applyInPlace_effect (displacement 0 "EXT") #[0x03, 0x2F, 0xFE] 0x3000 0 (by decide) (by decide)
      fits
  obtain ⟨fixed, applied⟩ := succeeds.mpr (by decide +kernel)
  have holds : (displacement 0 "EXT").apply #[0x03, 0x2F, 0xFE] 0x40 0 =
      .ok #[0x03, 0x20, 0x3B] := ok_of_toOption (by decide +kernel)
  refine ⟨⟨fixed, (inPlace fixed).mpr applied, ((effect fixed).mp applied).2, ?_⟩,
    (fails _).mp (error_of_failure? (by decide +kernel)), fun error after failed =>
      (stays error after failed).2⟩
  exact Except.ok.inj (applied.symm.trans holds)

end Relocation

end Sicxe
