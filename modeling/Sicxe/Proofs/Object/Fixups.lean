import Sicxe.Proofs.Object.Field
import Sicxe.Proofs.Success

/-!
# The fields of a module under their fix-ups

`Relocation.FixedBy` says that code became other code by fixing up records one after another. The
linker and the loader both do this (with different errors), so what a run of fix-ups leads to is
proved for the relation.

* `FixedBy.of_foldlM`, `FixedBy.foldlM_eq_ok`: a fold of fix-ups that succeeds is such a run, and
  such a run is a fold that succeeds.
* `FixedBy.kept`: bytes that no record covers stay.
* `FixedBy.resolved`: where no two fields share a byte, every field is resolved from the value that
  it had before the run.
* `FixedBy.inImage`, `FixedBy.ofImage`: fixing up a module inside a larger image comes to fixing up
  the module itself.
-/

namespace Sicxe

namespace Relocation

/-- The code `fixed` comes from `code` by fixing up some records one after another, for symbols at
their addresses and code placed at `origin`. -/
inductive FixedBy (address : String → Option UInt32) (origin : Nat) :
    List Relocation → Array UInt8 → Array UInt8 → Prop
  | nil (code : Array UInt8) : FixedBy address origin [] code code
  | cons {record : Relocation} {records : List Relocation} {code next fixed : Array UInt8}
      {target : UInt32} (found : address record.symbol = some target)
      (applied : record.apply code target.toNat origin = .ok next)
      (rest : FixedBy address origin records next fixed) :
      FixedBy address origin (record :: records) code fixed

/-- The fields of two records share no byte. -/
def Apart (first second : Relocation) : Prop :=
  first.offset + first.length ≤ second.offset ∨ second.offset + second.length ≤ first.offset

theorem Apart.symm {first second : Relocation} (apart : Apart first second) : Apart second first :=
  Or.symm apart

namespace FixedBy

variable {address : String → Option UInt32} {origin distance limit : Nat}
variable {records others : List Relocation} {code middle fixed small large : Array UInt8}

theorem nil_iff : FixedBy address origin [] code fixed ↔ code = fixed := by
  constructor
  · intro run
    cases run
    rfl
  · rintro rfl
    exact .nil _

theorem cons_iff {record : Relocation} :
    FixedBy address origin (record :: records) code fixed ↔
      ∃ next, (∃ target, address record.symbol = some target ∧
        record.apply code target.toNat origin = .ok next) ∧
          FixedBy address origin records next fixed := by
  constructor
  · intro run
    cases run with
    | cons found applied rest => exact ⟨_, ⟨_, found, applied⟩, rest⟩
  · rintro ⟨next, ⟨target, found, applied⟩, rest⟩
    exact .cons found applied rest

section Fold

variable {ε : Type} {step : Array UInt8 → Relocation → Except ε (Array UInt8)}

/-- **A fold whose steps fix up one record each is a run**, over the records as the steps take
them. -/
theorem of_foldlM (taken : Relocation → Relocation)
    (steps : ∀ {code : Array UInt8} {record : Relocation} {next : Array UInt8},
      step code record = .ok next → ∃ target, address (taken record).symbol = some target ∧
        (taken record).apply code target.toNat origin = .ok next)
    (succeeded : records.foldlM step code = .ok fixed) :
    FixedBy address origin (records.map taken) code fixed := by
  induction records generalizing code with
  | nil => exact nil_iff.mpr (foldlM_nil_eq_ok_iff.mp succeeded)
  | cons record rest ih =>
    obtain ⟨next, first, later⟩ := foldlM_cons_eq_ok_iff.mp succeeded
    obtain ⟨target, found, applied⟩ := steps first
    exact .cons found applied (ih later)

/-- **A run is a fold that succeeds**, where the steps fix up what they can in code of its size. -/
theorem foldlM_eq_ok (taken : Relocation → Relocation) {size : Nat} (sized : code.size = size)
    (steps : ∀ {code : Array UInt8} {record : Relocation} {next : Array UInt8} {target : UInt32},
      code.size = size → address (taken record).symbol = some target →
        (taken record).apply code target.toNat origin = .ok next → step code record = .ok next)
    (run : FixedBy address origin (records.map taken) code fixed) :
    records.foldlM step code = .ok fixed := by
  induction records generalizing code with
  | nil => exact foldlM_nil_eq_ok_iff.mpr (nil_iff.mp run)
  | cons record rest ih =>
    obtain ⟨next, ⟨target, found, applied⟩, later⟩ := cons_iff.mp run
    exact foldlM_cons_eq_ok_iff.mpr ⟨next, steps sized found applied,
      ih ((size_apply applied).trans sized) later⟩

end Fold

theorem size_eq (run : FixedBy address origin records code fixed) : fixed.size = code.size := by
  induction run with
  | nil => rfl
  | cons _ applied _ ih => rw [ih, size_apply applied]

theorem found (run : FixedBy address origin records code fixed) :
    ∀ record ∈ records, ∃ target, address record.symbol = some target := by
  induction run with
  | nil => exact fun _ member => by cases member
  | cons found _ _ ih =>
    intro record member
    rcases List.mem_cons.mp member with rfl | member
    · exact ⟨_, found⟩
    · exact ih _ member

theorem append (first : FixedBy address origin records code middle)
    (second : FixedBy address origin others middle fixed) :
    FixedBy address origin (records ++ others) code fixed := by
  induction first with
  | nil => exact second
  | cons found applied _ ih => exact .cons found applied (ih second)

theorem of_append : ∀ {records : List Relocation} {code : Array UInt8},
    FixedBy address origin (records ++ others) code fixed →
      ∃ middle, FixedBy address origin records code middle ∧
        FixedBy address origin others middle fixed
  | [], code, run => ⟨code, .nil code, run⟩
  | _ :: _, _, .cons found applied rest => by
    obtain ⟨middle, first, second⟩ := of_append rest
    exact ⟨middle, .cons found applied first, second⟩

/-- **Bytes that no record covers stay.** -/
theorem kept (run : FixedBy address origin records code fixed) {index : Nat}
    (free : ∀ record ∈ records, ¬ record.Covers index) : fixed[index]? = code[index]? := by
  induction run with
  | nil => rfl
  | cons _ applied _ ih =>
    obtain ⟨inside, value, _, rfl⟩ := apply_eq_ok_iff.mp applied
    rw [ih fun record member => free record (List.mem_cons_of_mem _ member),
      getElem?_put inside (free _ List.mem_cons_self)]

/-- A field that no record of a run touches reads as before. -/
theorem raw_kept (run : FixedBy address origin records code fixed) {record : Relocation}
    (apart : ∀ other ∈ records, Apart record other) : record.raw fixed = record.raw code := by
  unfold raw
  rw [Bytes.slice_congr fun index inside => run.kept fun other member covers => ?_]
  have := apart other member
  unfold Apart at this
  unfold Covers at covers
  omega

/-- **Every field is resolved from the value that it had before the run**, and the bits above its
half bytes stay, where no two fields share a byte. -/
theorem resolved (run : FixedBy address origin records code fixed)
    (fits : ∀ record ∈ records, record.Fits) (apart : records.Pairwise Apart) :
    ∀ record ∈ records, ∃ target value, address record.symbol = some target ∧
      record.resolve (record.field code) target.toNat origin = .ok value ∧
      record.raw fixed = record.raw code / record.capacity * record.capacity + value := by
  induction run with
  | nil => exact fun _ member => by cases member
  | @cons head records code next fixed target found applied rest ih =>
    obtain ⟨apartHead, apartRest⟩ := List.pairwise_cons.mp apart
    intro record member
    rcases List.mem_cons.mp member with rfl | member
    · obtain ⟨inside, value, resolved, rfl⟩ := apply_eq_ok_iff.mp applied
      refine ⟨target, value, found, resolved, ?_⟩
      rw [rest.raw_kept apartHead, raw_put (fits _ List.mem_cons_self) inside (resolve_lt resolved)]
    · have single : FixedBy address origin [head] code next := .cons found applied (.nil next)
      have same : record.raw next = record.raw code := single.raw_kept fun other only => by
        rw [List.mem_singleton.mp only]
        exact (apartHead record member).symm
      have later := ih (fun other inRest => fits other (List.mem_cons_of_mem _ inRest)) apartRest
        record member
      unfold field at later ⊢
      rw [same] at later
      exact later

/-! ### Modules in a larger image -/

/-- **What fixes up a module fixes it up inside an image**, and the image then holds the fixed
module. -/
theorem inImage (run : FixedBy address (origin + distance) records small fixed) :
    ∀ {large : Array UInt8}, Bytes.Agree large distance small limit →
      (∀ record ∈ records, record.inside limit) →
      (∀ record ∈ records, distance = 0 ∨ record.HasInstruction) →
      limit ≤ small.size → distance + limit ≤ large.size →
      ∃ image, FixedBy address origin (records.map fun record => record.shifted distance) large
        image ∧ Bytes.Agree image distance fixed limit := by
  induction run with
  | nil => exact fun agree _ _ _ _ => ⟨_, .nil _, agree⟩
  | @cons record records small next fixed target found applied rest ih =>
    intro large agree inside placed smallFits largeFits
    have insideHead := inside _ List.mem_cons_self
    have placedHead := placed _ List.mem_cons_self
    obtain ⟨image, inLarge⟩ :=
      (apply_shifted_iff agree insideHead smallFits largeFits placedHead).mpr ⟨_, applied⟩
    have agreeNext :=
      apply_shifted_agree agree insideHead smallFits largeFits placedHead inLarge applied
    obtain ⟨last, runRest, agreeLast⟩ := ih agreeNext
      (fun other member => inside other (List.mem_cons_of_mem _ member))
      (fun other member => placed other (List.mem_cons_of_mem _ member))
      (by rw [size_apply applied]; exact smallFits) (by rw [size_apply inLarge]; exact largeFits)
    exact ⟨last, .cons found inLarge runRest, agreeLast⟩

/-- **What fixes up a module inside an image fixes up the module itself.** -/
theorem ofImage {image : Array UInt8} : ∀ {records : List Relocation} {large small : Array UInt8},
    FixedBy address origin (records.map fun record => record.shifted distance) large image →
      Bytes.Agree large distance small limit →
      (∀ record ∈ records, record.inside limit) →
      (∀ record ∈ records, distance = 0 ∨ record.HasInstruction) →
      limit ≤ small.size → distance + limit ≤ large.size →
      ∃ fixed, FixedBy address (origin + distance) records small fixed ∧
        Bytes.Agree image distance fixed limit
  | [], _, small, .nil _, agree, _, _, _, _ => ⟨small, .nil small, agree⟩
  | record :: records, _, _, .cons found inLarge rest, agree, inside, placed, smallFits,
      largeFits => by
    have insideHead := inside _ List.mem_cons_self
    have placedHead := placed _ List.mem_cons_self
    obtain ⟨next, applied⟩ :=
      (apply_shifted_iff agree insideHead smallFits largeFits placedHead).mp ⟨_, inLarge⟩
    have agreeNext :=
      apply_shifted_agree agree insideHead smallFits largeFits placedHead inLarge applied
    obtain ⟨fixed, runRest, agreeLast⟩ := ofImage rest agreeNext
      (fun other member => inside other (List.mem_cons_of_mem _ member))
      (fun other member => placed other (List.mem_cons_of_mem _ member))
      (by rw [size_apply applied]; exact smallFits) (by rw [size_apply inLarge]; exact largeFits)
    exact ⟨fixed, .cons found applied runRest, agreeLast⟩

/-- A run inside an image leaves the bytes outside of the module alone. -/
theorem kept_outside {image : Array UInt8}
    (run : FixedBy address origin (records.map fun record => record.shifted distance) large image)
    (inside : ∀ record ∈ records, record.inside limit) {index : Nat}
    (outside : index < distance ∨ distance + limit ≤ index) : image[index]? = large[index]? := by
  refine run.kept fun shifted member covers => ?_
  obtain ⟨record, original, rfl⟩ := List.mem_map.mp member
  have bound := (inside record original).2.2
  obtain ⟨begins, upTo⟩ : record.offset + distance ≤ index ∧
    index < record.offset + distance + record.length := covers
  omega

end FixedBy

end Relocation

namespace Object

/-- Every record of a module has its field inside the code, and a displacement has its
instruction. -/
def RecordsInside (object : Object) : Prop :=
  ∀ record ∈ object.relocations, record.inside object.code.size ∧ record.HasInstruction

/-- The records of a module do not get in each other's way. -/
structure SoundRecords (object : Object) : Prop where
  inside : object.RecordsInside
  fits : ∀ record ∈ object.relocations, record.Fits
  apart : object.relocations.Pairwise Relocation.Apart
  /-- A displacement has 12 bits. -/
  displacement : ∀ record ∈ object.relocations, record.relative = true → record.halfBytes = 3

end Object

end Sicxe
