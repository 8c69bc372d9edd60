import Sicxe.Link.Linker
import Sicxe.Proofs.Link.Sections
import Sicxe.Proofs.Object.Fixups
import Sicxe.Proofs.Success

/-!
# The image of linked modules

An image takes in one module after another, and each is fixed up in place.

* `Object.fixedBy_of_placeInImage`, `Object.placeInImage_eq_ok_iff`: taking in one module is a copy
  and a run of fix-ups.
* `Object.image_holds_modules`: where the sections share no address and every record stays in its
  module, the finished image holds each module, fixed up for its own section, and keeps its other
  bytes.
-/

namespace Sicxe

namespace Object

open Relocation (FixedBy)

variable {globals : SymbolTable} {start distance : Nat} {name : String}
variable {image result : Array UInt8}

theorem fixUp_eq_ok_iff {record : Relocation} :
    fixUp globals start distance name image record = .ok result ↔
      (record.shifted distance).Addressable ∧
        ∃ target, globals.address? (record.shifted distance).symbol = some target ∧
          (record.shifted distance).apply image target.toNat start = .ok result := by
  show _ ↔ _ ∧ ∃ target, globals.address? record.symbol = some target ∧ _
  unfold fixUp
  cases globals.address? record.symbol with
  | none => simp
  | some target =>
    simp only [Option.some.injEq, exists_eq_left']
    by_cases addressable : (record.shifted distance).Addressable
    · rw [if_pos addressable]
      cases (record.shifted distance).apply image target.toNat start <;> simp [addressable]
    · simp [addressable]

/-- Taking in a module is a copy and a run over its shifted records. -/
theorem fixedBy_of_placeInImage {placed : PlacedObject}
    (succeeded : placeInImage globals start image placed = .ok result) :
    FixedBy globals.address? start
      (placed.1.relocations.map fun record => record.shifted (placed.2.begin - start))
      (Bytes.write image (placed.2.begin - start) placed.1.code.toList) result :=
  FixedBy.of_foldlM _ (fun fixed => (fixUp_eq_ok_iff.mp fixed).2) succeeded

/-- **A module is taken in exactly if its records can be fixed up**, by an image of at most 2 ^ 32
bytes: a field inside it has an offset of 32 bits. -/
theorem placeInImage_eq_ok_iff {placed : PlacedObject} (small : image.size ≤ Numeral.wordBound) :
    placeInImage globals start image placed = .ok result ↔
      FixedBy globals.address? start
        (placed.1.relocations.map fun record => record.shifted (placed.2.begin - start))
        (Bytes.write image (placed.2.begin - start) placed.1.code.toList) result := by
  refine ⟨fixedBy_of_placeInImage, FixedBy.foldlM_eq_ok _ (Bytes.size_write ..) ?_⟩
  intro code record next target sized found applied
  have inside := (Relocation.apply_eq_ok_iff.mp applied).1
  have addressable := Relocation.addressable_of_inside inside
    (Nat.le_trans (Nat.le_of_eq sized) small)
  exact fixUp_eq_ok_iff.mpr ⟨addressable, target, found, applied⟩

/-- The section of a module in an image that starts at `start` and has `size` bytes. -/
structure InImage (start size : Nat) (placed : PlacedObject) : Prop where
  begins : start ≤ placed.2.begin
  limit : placed.2.limit = placed.2.begin + placed.1.length
  room : placed.2.limit ≤ start + size

/-- The image that starts at `start` holds a module, fixed up for its section. -/
def HoldsFixed (globals : SymbolTable) (start : Nat) (image : Array UInt8)
    (placed : PlacedObject) : Prop :=
  ∃ fixed, FixedBy globals.address? placed.2.begin placed.1.relocations placed.1.code fixed ∧
    Bytes.Agree image (placed.2.begin - start) fixed placed.1.code.size

/-- An image that took in a module holds it and keeps the bytes outside of its section. -/
theorem placeInImage_holds {placed : PlacedObject} (inImage : InImage start image.size placed)
    (inside : placed.1.RecordsInside)
    (succeeded : placeInImage globals start image placed = .ok result) :
    result.size = image.size ∧ HoldsFixed globals start result placed ∧
      ∀ index, ¬ placed.2.Contains (start + index) → result[index]? = image[index]? := by
  obtain ⟨begins, limit, room⟩ := inImage
  have run := fixedBy_of_placeInImage succeeded
  have length : placed.1.length = placed.1.code.size := rfl
  have fits : placed.2.begin - start + placed.1.code.size ≤ image.size := by omega
  have written := Bytes.size_write image (placed.2.begin - start) placed.1.code.toList
  have recordsInside : ∀ record ∈ placed.1.relocations, record.inside placed.1.code.size :=
    fun record member => (inside record member).1
  refine ⟨run.size_eq.trans written, ?_, fun index outside => ?_⟩
  · obtain ⟨fixed, runInModule, agree⟩ := FixedBy.ofImage run
      (Bytes.Agree.of_write image placed.1.code fits) recordsInside
      (fun record member => Or.inr (inside record member).2) (Nat.le_refl _)
      (by rw [written]; exact fits)
    rw [Nat.add_sub_cancel' begins] at runInModule
    exact ⟨fixed, runInModule, agree⟩
  · unfold Section.Contains at outside
    have apart : index < placed.2.begin - start ∨
        placed.2.begin - start + placed.1.code.size ≤ index := by omega
    rw [run.kept_outside recordsInside apart,
      Bytes.getElem?_write_of_apart _ _ _ (by simpa using fits) (by simpa using apart)]

/-- **A finished image holds every module, fixed up for its section, and keeps the bytes that
belong to no module.** -/
theorem image_holds_modules : ∀ {modules : List PlacedObject} {image : Array UInt8},
    modules.foldlM (placeInImage globals start) image = .ok result →
    (∀ placed ∈ modules, InImage start image.size placed) →
    (∀ placed ∈ modules, placed.1.RecordsInside) →
    modules.Pairwise (fun first second => Section.Disjoint first.2 second.2) →
    result.size = image.size ∧ (∀ placed ∈ modules, HoldsFixed globals start result placed) ∧
      ∀ index, (∀ placed ∈ modules, ¬ placed.2.Contains (start + index)) →
        result[index]? = image[index]?
  | [], image, succeeded, _, _, _ => by
    rw [foldlM_nil_eq_ok_iff.mp succeeded]
    exact ⟨rfl, fun _ member => (by cases member), fun _ _ => rfl⟩
  | placed :: rest, image, succeeded, inImage, inside, disjoint => by
    obtain ⟨next, placedOne, placedRest⟩ := foldlM_cons_eq_ok_iff.mp succeeded
    obtain ⟨apart, disjoint⟩ := List.pairwise_cons.mp disjoint
    have headInImage := inImage placed List.mem_cons_self
    obtain ⟨size, ⟨fixed, run, agree⟩, kept⟩ :=
      placeInImage_holds headInImage (inside placed List.mem_cons_self) placedOne
    obtain ⟨sizeRest, holdsRest, keptRest⟩ := image_holds_modules placedRest
      (fun other member => by rw [size]; exact inImage other (List.mem_cons_of_mem _ member))
      (fun other member => inside other (List.mem_cons_of_mem _ member)) disjoint
    refine ⟨sizeRest.trans size, fun other member => ?_, fun index outside => ?_⟩
    · rcases List.mem_cons.mp member with rfl | member
      · refine ⟨fixed, run, agree.of_kept fun index behind upTo => ?_⟩
        refine keptRest index fun later inRest => apart later inRest _ ?_
        obtain ⟨begins, limit, _⟩ := headInImage
        have length : other.1.length = other.1.code.size := rfl
        unfold Section.Contains
        omega
      · exact holdsRest other member
    · rw [keptRest index fun later inRest => outside later (List.mem_cons_of_mem _ inRest),
        kept index (outside placed List.mem_cons_self)]

end Object

end Sicxe
