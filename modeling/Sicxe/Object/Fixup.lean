import Sicxe.Bytes
import Sicxe.Object.Basic
import Sicxe.Object.Error
import Sicxe.Word

/-!
# Fixing up fields

`Relocation.apply` resolves one field of a module's code once the symbol of its record has an
address. An absolute field has the address added. A relative field holds a signed addend and
becomes the distance from the end of its instruction to the symbol, plus the addend; it must fit
12 bits. The bits of the field above its half bytes stay as they are, and an error leaves the code
as it was.
-/

namespace Sicxe.Relocation

/-- The number of bytes of an instruction that holds a relative field. -/
def relativeInstructionLength : Nat := 3

/-- Whether a field lies inside code of `size` bytes. -/
def inside (record : Relocation) (size : Nat) : Prop :=
  1 ≤ record.length ∧ record.length ≤ 4 ∧ record.offset + record.length ≤ size

instance (record : Relocation) (size : Nat) : Decidable (record.inside size) :=
  inferInstanceAs (Decidable (_ ∧ _ ∧ _))

/-- The bytes of the field, read as a number. -/
def raw (record : Relocation) (code : Array UInt8) : Nat :=
  Bytes.value (Bytes.slice code record.offset record.length)

/-- The value of the half bytes of the field. -/
def field (record : Relocation) (code : Array UInt8) : Nat :=
  record.raw code % record.capacity

/-- What the half bytes of a field become, given their value so far, for a symbol at `address` in
code placed at `origin`. -/
def resolve (record : Relocation) (value address origin : Nat) : Except ObjectError Nat :=
  if record.relative then
    let addend := signExtend (4 * record.halfBytes) value
    let distance := addend + address -
      (origin + record.instruction + relativeInstructionLength : Nat)
    if -2048 ≤ distance ∧ distance ≤ 2047 then
      .ok (distance % record.capacity).toNat
    else
      .error (.displacementRange record.symbol record.offset distance)
  else
    let sum := value + address
    if sum < record.capacity then .ok sum else .error (.fieldOverflow record.symbol record.offset)

/-- The code with `value` in the half bytes of the field. -/
def put (record : Relocation) (code : Array UInt8) (value : Nat) : Array UInt8 :=
  let raw := record.raw code
  Bytes.write code record.offset
    (Bytes.ofNat record.length (raw / record.capacity * record.capacity + value))

/-- The code with the record's field resolved for a symbol at `address`, the code being placed at
`origin`. -/
def apply (record : Relocation) (code : Array UInt8) (address origin : Nat) :
    Except ObjectError (Array UInt8) :=
  if record.inside code.size then
    match record.resolve (record.field code) address origin with
    | .ok value => .ok (record.put code value)
    | .error error => .error error
  else
    .error (.fieldOutOfRange record.offset record.length code.size)

/-- **A fix-up keeps the size of the code.** -/
theorem size_apply {record : Relocation} {code fixed : Array UInt8} {address origin : Nat}
    (applied : record.apply code address origin = .ok fixed) : fixed.size = code.size := by
  unfold apply at applied
  split at applied
  · split at applied
    · cases applied
      exact Bytes.size_write ..
    · cases applied
  · cases applied

end Sicxe.Relocation
