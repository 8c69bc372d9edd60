import Sicxe.Proofs.Object.Fixups

/-!
# A module fixed up where it stands in an image

The linker puts the code of a module behind other code and fixes up the shifted records, for the
origin of the image. The loader fixes up the records themselves, for the address of the module.

* `Relocation.raw_append`, `Relocation.put_append`: what a shifted record reads and writes behind
  other code is what the record reads and writes in the module.
* `Relocation.apply_append_iff`, `Relocation.FixedBy.append_iff`: one fix-up in an image, and a run.
* `Relocation.apply_shifted_append`: **fixing up a module in an image comes to fixing up the
  module, exactly when every displacement has its instruction.**
-/

namespace Sicxe

namespace Relocation

variable {record : Relocation} {before code image fixed : Array UInt8}
variable {address origin : Nat}

/-! ### The field behind other code -/

theorem raw_append (record : Relocation) (before code : Array UInt8) :
    (record.shifted before.size).raw (before ++ code) = record.raw code :=
  congrArg Bytes.value (Bytes.slice_append before code record.offset record.length)

theorem put_append (record : Relocation) (before code : Array UInt8) (value : Nat) :
    (record.shifted before.size).put (before ++ code) value = before ++ record.put code value := by
  rw [put, raw_append]
  exact Bytes.write_append before code record.offset _

theorem inside_append_iff :
    (record.shifted before.size).inside (before ++ code).size ↔ record.inside code.size := by
  have room : record.offset + before.size + record.length ≤ before.size + code.size ↔
      record.offset + record.length ≤ code.size := by omega
  rw [Array.size_append]
  exact and_congr Iff.rfl (and_congr Iff.rfl room)

/-! ### One fix-up -/

/-- **A field behind other code is fixed up as in its module**, for an origin further on, and the
other code stays in front of it. -/
theorem apply_append_iff :
    (record.shifted before.size).apply (before ++ code) address origin = .ok image ↔
      ∃ fixed, record.apply code address (origin + record.advance before.size) = .ok fixed ∧
        image = before ++ fixed := by
  have field : (record.shifted before.size).field (before ++ code) = record.field code :=
    congrArg (· % record.capacity) (raw_append record before code)
  simp only [apply_eq_ok_iff, inside_append_iff, field, resolve_shifted_iff, put_append]
  constructor
  · rintro ⟨inside, value, resolved, rfl⟩
    exact ⟨_, ⟨inside, value, resolved, rfl⟩, rfl⟩
  · rintro ⟨_, ⟨inside, value, resolved, rfl⟩, rfl⟩
    exact ⟨inside, value, resolved, rfl⟩

/-- A displacement in the first byte of a module has no instruction in it. -/
theorem first_of_not_hasInstruction (without : ¬ record.HasInstruction) :
    record.relative = true ∧ record.offset = 0 := by
  obtain ⟨relative, first⟩ := Classical.not_imp.mp without
  exact ⟨relative, by omega⟩

/-- A fix-up does not depend on the origin, but for a displacement. -/
theorem apply_of_advance (placed : before.size = 0 ∨ record.HasInstruction) :
    record.apply code address (origin + record.advance before.size) = .ok fixed ↔
      record.apply code address (origin + before.size) = .ok fixed := by
  simp only [apply_eq_ok_iff, ← resolve_shifted_iff, resolve_shifted placed]

/-! ### Two origins -/

theorem sixteen_dvd_capacity (changes : 1 ≤ record.halfBytes) : 16 ∣ record.capacity :=
  Nat.pow_dvd_pow 2 (show 4 ≤ 4 * record.halfBytes by omega)

/-- The last half byte of a field takes that of the value, in a field of any width. -/
theorem raw_put_mod (inside : record.inside code.size) (changes : 1 ≤ record.halfBytes)
    (value : Nat) : record.raw (record.put code value) % 16 = value % 16 := by
  have inBytes : 16 ∣ valueCount (8 * record.length) :=
    Nat.pow_dvd_pow 2 (show 4 ≤ 8 * record.length by have := inside.1; omega)
  have high : record.raw code / record.capacity * record.capacity % 16 = 0 :=
    Nat.mod_eq_zero_of_dvd (Nat.dvd_mul_left_of_dvd (sixteen_dvd_capacity changes) _)
  rw [raw_put_eq_mod inside, Nat.mod_mod_of_dvd _ inBytes]
  omega

/-- The last half byte of a displacement is that of the distance. -/
theorem last_of_apply (relative : record.relative = true) (changes : 1 ≤ record.halfBytes)
    (applied : record.apply code address origin = .ok fixed) :
    ((record.raw fixed % 16 : Nat) : Int) =
      record.distanceTo (record.field code) address origin % 16 := by
  obtain ⟨inside, value, resolved, rfl⟩ := apply_eq_ok_iff.mp applied
  obtain ⟨_, rfl⟩ := (resolve_relative_iff relative).mp resolved
  have inField : (16 : Int) ∣ record.capacity :=
    Int.natCast_dvd_natCast.mpr (sixteen_dvd_capacity changes)
  have nonneg : 0 ≤ record.distanceTo (record.field code) address origin % record.capacity :=
    Int.emod_nonneg _ (by have := record.capacity_pos; omega)
  rw [raw_put_mod inside changes, Int.natCast_emod, Int.toNat_of_nonneg nonneg]
  exact Int.emod_emod_of_dvd _ inField

/-- **A displacement is not the same for an origin one byte further on.** -/
theorem apply_ne_of_succ (relative : record.relative = true) (changes : 1 ≤ record.halfBytes)
    (applied : record.apply code address origin = .ok fixed) :
    record.apply code address (origin + 1) ≠ .ok fixed := by
  intro again
  have closer : record.distanceTo (record.field code) address (origin + 1) =
      record.distanceTo (record.field code) address origin - 1 := by
    unfold distanceTo
    omega
  have first := last_of_apply relative changes applied
  have second := last_of_apply relative changes again
  rw [closer] at second
  omega

/-! ### A run of fix-ups -/

/-- **A module behind other code is fixed up as the module itself.** -/
theorem FixedBy.append_iff {lookup : String → Option UInt32} {records : List Relocation}
    (placed : ∀ record ∈ records, before.size = 0 ∨ record.HasInstruction) :
    FixedBy lookup origin (records.map fun record => record.shifted before.size) (before ++ code)
        image ↔
      ∃ fixed, FixedBy lookup (origin + before.size) records code fixed ∧
        image = before ++ fixed := by
  induction records generalizing code with
  | nil =>
    simp only [List.map_nil, nil_iff, exists_eq_left', eq_comm]
  | cons record rest ih =>
    have placedHead := placed record List.mem_cons_self
    have step {target : UInt32} {next : Array UInt8} :
        (record.shifted before.size).apply (before ++ code) target.toNat origin = .ok next ↔
          ∃ fixed, record.apply code target.toNat (origin + before.size) = .ok fixed ∧
            next = before ++ fixed := by
      simp only [apply_append_iff, apply_of_advance placedHead]
    simp only [List.map_cons, cons_iff, step]
    have placedRest : ∀ other ∈ rest, before.size = 0 ∨ other.HasInstruction :=
      fun other member => placed other (List.mem_cons_of_mem _ member)
    constructor
    · rintro ⟨_, ⟨target, found, middle, applied, rfl⟩, run⟩
      obtain ⟨fixed, runRest, rfl⟩ := (ih placedRest).mp run
      exact ⟨fixed, ⟨middle, ⟨target, found, applied⟩, runRest⟩, rfl⟩
    · rintro ⟨fixed, ⟨middle, ⟨target, found, applied⟩, runRest⟩, rfl⟩
      exact ⟨_, ⟨target, found, middle, applied, rfl⟩, (ih placedRest).mpr ⟨fixed, runRest, rfl⟩⟩

/-! ### The module in the image and the module itself -/

/-- **Fixing up a field behind other code comes to fixing it up in its module, exactly when a
displacement has its instruction in the module**, or when there is no other code. The same holds for
a run over the records of a module. A displacement in the first byte of a module counts from an end
of its instruction that lies one byte lower in the image, and no success in the image is then what
the module itself becomes. -/
theorem apply_shifted_append (record : Relocation) (before code : Array UInt8)
    (address origin : Nat) (changes : 1 ≤ record.halfBytes) :
    (before.size = 0 ∨ record.HasInstruction →
        ∀ image, (record.shifted before.size).apply (before ++ code) address origin = .ok image ↔
          ∃ fixed, record.apply code address (origin + before.size) = .ok fixed ∧
            image = before ++ fixed) ∧
      (¬ (before.size = 0 ∨ record.HasInstruction) →
        ∀ image,
          ((record.shifted before.size).apply (before ++ code) address origin = .ok image ↔
            ∃ fixed, record.apply code address (origin + (before.size - 1)) = .ok fixed ∧
              image = before ++ fixed) ∧
          ((record.shifted before.size).apply (before ++ code) address origin = .ok image →
            ∀ fixed, record.apply code address (origin + before.size) = .ok fixed →
              image ≠ before ++ fixed)) ∧
      ∀ (lookup : String → Option UInt32) (records : List Relocation),
        (∀ other ∈ records, before.size = 0 ∨ other.HasInstruction) →
          ∀ image,
            FixedBy lookup origin (records.map fun other => other.shifted before.size)
                (before ++ code) image ↔
              ∃ fixed, FixedBy lookup (origin + before.size) records code fixed ∧
                image = before ++ fixed := by
  refine ⟨fun placed image => ?_, fun unplaced image => ?_,
    fun lookup records placed image => FixedBy.append_iff placed⟩
  · simp only [apply_append_iff, apply_of_advance placed]
  · obtain ⟨nonempty, without⟩ := not_or.mp unplaced
    obtain ⟨relative, first⟩ := first_of_not_hasInstruction without
    rw [apply_append_iff, advance_of_first first]
    refine ⟨Iff.rfl, ?_⟩
    rintro ⟨inImage, appliedBefore, rfl⟩ fixed applied same
    have next : origin + before.size = origin + (before.size - 1) + 1 := by omega
    rw [(Array.append_right_inj before).mp same] at appliedBefore
    rw [next] at applied
    exact apply_ne_of_succ relative changes appliedBefore applied

/-- A displacement with its opcode is fixed up behind three bytes as it is at the address 3. -/
theorem apply_shifted_append_behind :
    (displacement 0 "S").HasInstruction ∧
      (displacement 0 "S").apply #[0x03, 0x2F, 0xFE] 0x40 (0 + 3) = .ok #[0x03, 0x20, 0x38] ∧
      ((displacement 0 "S").shifted 3).apply (#[0x4F, 0, 0] ++ #[0x03, 0x2F, 0xFE]) 0x40 0 =
        .ok (#[0x4F, 0, 0] ++ #[0x03, 0x20, 0x38]) := by
  have behind : (displacement 0 "S").HasInstruction := fun _ => Nat.le_refl 1
  have fixed : (displacement 0 "S").apply #[0x03, 0x2F, 0xFE] 0x40 (0 + 3) =
      .ok #[0x03, 0x20, 0x38] := ok_of_toOption (by decide +kernel)
  obtain ⟨same, _, _⟩ :=
    apply_shifted_append (displacement 0 "S") #[0x4F, 0, 0] #[0x03, 0x2F, 0xFE] 0x40 0 (by decide)
  exact ⟨behind, fixed, (same (.inr behind) _).mpr ⟨_, fixed, rfl⟩⟩

/-- A displacement in the first byte of a module. -/
def firstDisplacement : Relocation :=
  ⟨0, "S", 2, 3, true⟩

/-- Behind one byte it counts from 3, and at the address 1 from 4. No sum comes near the end of the
32 bits. -/
theorem apply_shifted_append_first :
    ¬ ∀ (record : Relocation) (before code : Array UInt8) (address origin : Nat),
        1 ≤ record.halfBytes → record.halfBytes ≤ 8 → address < Numeral.wordBound →
        record.offset + before.size < Numeral.wordBound →
        origin + before.size < Numeral.wordBound →
          ∀ image, (record.shifted before.size).apply (before ++ code) address origin = .ok image ↔
            ∃ fixed, record.apply code address (origin + before.size) = .ok fixed ∧
              image = before ++ fixed := by
  intro always
  have inImage : (firstDisplacement.shifted 1).apply (#[0] ++ #[0, 0]) 16 0 =
      .ok #[0, 0, 0x0D] := ok_of_toOption (by decide +kernel)
  have alone : firstDisplacement.apply #[0, 0] 16 (0 + 1) = .ok #[0, 0x0C] :=
    ok_of_toOption (by decide +kernel)
  obtain ⟨fixed, applied, same⟩ :=
    (always firstDisplacement #[0] #[0, 0] 16 0 (by decide) (by decide) (by decide) (by decide)
      (by decide) _).mp inImage
  cases alone.symm.trans applied
  cases congrArg (fun image : Array UInt8 => image[2]?) same

end Relocation

end Sicxe
