import Sicxe.Proofs.Link.Grouping

/-!
# References in a relocatable program

A relocatable program is linked or loaded later on, so every field that its modules still had to fix
up must find its record, its symbol and its addend there.

* `mem_recordsFrom_iff`: the records of the program are those of the modules, each shifted by the
  bytes before its module.
* `map_name_exportsFrom`, `mem_imports_iff`: the names that it defines and those that it imports,
  and `mem_names_or_imports_iff` for both together.
* `agree_joinedCode`: every module's code stands in the joined code as it is.
* `link_relocatable_references`: **no reference is lost.**
-/

namespace Sicxe.Object

/-- The names that other modules may refer to. -/
def exportedNames (object : Object) : List String :=
  object.symbols.exported.map Symbol.name

/-- Every record of the module refers to one of its own exports or to one of its imports. -/
def RefersToDeclared (object : Object) : Prop :=
  ∀ record ∈ object.relocations,
    record.symbol ∈ object.exportedNames ∨ record.symbol ∈ object.imports

instance (object : Object) : Decidable object.RefersToDeclared :=
  inferInstanceAs (Decidable (∀ record ∈ object.relocations, _ ∨ _))

/-- The program `linked` has kept the references of its modules. -/
structure KeepsReferences (modules : List Object) (linked : Object) : Prop where
  /-- The records of the modules in order, and no others. -/
  records : linked.relocations = recordsFrom 0 modules
  /-- No sum of addresses or offsets wraps around. -/
  addressable : Addressable modules
  /-- Every record finds its symbol. -/
  resolvable : ∀ record ∈ linked.relocations,
    record.symbol ∈ linked.symbols.names ∨ record.symbol ∈ linked.imports
  disjoint : ∀ name ∈ linked.imports, name ∉ linked.symbols.names
  imports : ∀ name, name ∈ linked.imports ↔
    (∃ object ∈ modules, name ∈ object.imports) ∧ ∀ object ∈ modules, name ∉ object.exportedNames
  /-- The field of a record inside its own module has kept its addend. -/
  addends : ∀ before object after, modules = before ++ object :: after →
    ∀ record ∈ object.relocations, record.offset + record.length ≤ object.code.size →
      record.shifted (totalLength before) ∈ linked.relocations ∧
        (record.shifted (totalLength before)).field linked.code = record.field object.code

variable {object linked : Object} {modules before after : List Object}

/-! ### Records -/

/-- **The records of modules that lie one after another**, each at the place of its module. -/
theorem mem_recordsFrom_iff {position : Nat} {record : Relocation} :
    record ∈ recordsFrom position modules ↔
      ∃ before object after original, modules = before ++ object :: after ∧
        original ∈ object.relocations ∧
        record = original.shifted (position + totalLength before) := by
  constructor
  · induction modules generalizing position with
    | nil => exact fun member => by cases member
    | cons head rest ih =>
      intro member
      rcases List.mem_append.mp member with inHead | inRest
      · obtain ⟨original, isRecord, rfl⟩ := List.mem_map.mp inHead
        exact ⟨[], head, rest, original, rfl, isRecord, rfl⟩
      · obtain ⟨before, object, after, original, rfl, isRecord, rfl⟩ := ih inRest
        refine ⟨head :: before, object, after, original, rfl, isRecord, ?_⟩
        rw [totalLength_cons, Nat.add_assoc]
  · rintro ⟨before, object, after, original, rfl, isRecord, rfl⟩
    rw [recordsFrom_append, recordsFrom]
    exact List.mem_append_right _ (List.mem_append_left _ (List.mem_map_of_mem isRecord))

/-! ### Names -/

/-- The names that modules export, in order. -/
theorem map_name_exportsFrom (position : Nat) (modules : List Object) :
    (exportsFrom position modules).map Symbol.name = modules.flatMap exportedNames := by
  induction modules generalizing position with
  | nil => rfl
  | cons object rest ih =>
    have moved : (object.movedTo (UInt32.ofNat position)).symbols.exported.map Symbol.name =
        object.exportedNames := by
      show (object.symbols.rebased _ _).exported.map Symbol.name = _
      rw [exported_rebased, List.map_map, exportedNames]
      refine List.map_congr_left fun symbol _ => ?_
      exact SymbolTable.name_rebased symbol _ _
    rw [List.flatMap_cons, ← ih (position + object.length), ← moved, ← List.map_append]
    rfl

/-- The program defines the exports of its modules. -/
theorem mem_names_iff {first : Object} {name : String} :
    name ∈ (relocatableProgram first modules).symbols.names ↔
      ∃ object ∈ modules, name ∈ object.exportedNames := by
  show name ∈ (exportsFrom 0 modules).map Symbol.name ↔ _
  rw [map_name_exportsFrom, List.mem_flatMap]

/-- **The program imports what some module imports and none exports.** -/
theorem mem_imports_iff {first : Object} {name : String} :
    name ∈ (relocatableProgram first modules).imports ↔
      (∃ object ∈ modules, name ∈ object.imports) ∧
        ∀ object ∈ modules, name ∉ object.exportedNames := by
  have absent : (relocatableProgram first modules).symbols.contains name = false ↔
      ∀ object ∈ modules, name ∉ object.exportedNames := by
    rw [Bool.eq_false_iff, Ne, SymbolTable.contains_iff, mem_names_iff]
    simp only [not_exists, not_and]
  rw [← absent]
  show name ∈ openImports (relocatableProgram first modules).symbols modules ↔ _
  rw [mem_openImports]
  constructor
  · rintro ⟨object, member, isImport, missing⟩
    exact ⟨⟨object, member, isImport⟩, missing⟩
  · rintro ⟨⟨object, member, isImport⟩, missing⟩
    exact ⟨object, member, isImport, missing⟩

/-- **The program knows every name that its modules know to the outside**, as a symbol or as an
import. -/
theorem mem_names_or_imports_iff {first : Object} {name : String} :
    name ∈ (relocatableProgram first modules).symbols.names ∨
        name ∈ (relocatableProgram first modules).imports ↔
      ∃ object ∈ modules, name ∈ object.exportedNames ∨ name ∈ object.imports := by
  rw [mem_names_iff, mem_imports_iff]
  constructor
  · rintro (⟨object, member, isExport⟩ | ⟨⟨object, member, isImport⟩, _⟩)
    · exact ⟨object, member, .inl isExport⟩
    · exact ⟨object, member, .inr isImport⟩
  · rintro ⟨object, member, isExport | isImport⟩
    · exact .inl ⟨object, member, isExport⟩
    · by_cases exported : ∃ other ∈ modules, name ∈ other.exportedNames
      · exact .inl exported
      · exact .inr ⟨⟨object, member, isImport⟩, fun other inModules isExport =>
          exported ⟨other, inModules, isExport⟩⟩

/-! ### Code -/

/-- **Every module's code stands in the joined code**, behind the code of the modules before it. -/
theorem agree_joinedCode (before : List Object) (object : Object) (after : List Object) :
    Bytes.Agree (joinedCode (before ++ object :: after)) (totalLength before) object.code
      object.code.size := by
  intro index bound
  have length := length_flatMap_code before
  rw [← Array.getElem?_toList, toList_joinedCode, List.flatMap_append, List.flatMap_cons,
    List.getElem?_append_right (by omega), length, Nat.add_sub_cancel_left,
    List.getElem?_append_left (by simpa using bound), Array.getElem?_toList]

/-- A field inside its own module reads the same in the joined code. -/
theorem field_joinedCode {record : Relocation}
    (inside : record.offset + record.length ≤ object.code.size) :
    (record.shifted (totalLength before)).field (joinedCode (before ++ object :: after)) =
      record.field object.code := by
  have bytes := (agree_joinedCode before object after).slice inside
  rw [Nat.add_comm] at bytes
  show Bytes.value (Bytes.slice _ (record.offset + totalLength before) record.length) % _ = _
  rw [bytes]
  rfl

/-! ### The program -/

/-- **Relocatable linking loses no reference.** When the records of the modules refer to what the
modules export or import, the program has every record at its new place and no others, every record
finds its symbol among the symbols or the imports of the program, these have no name in common, the
imports that no module exports remain, and every field inside its own module has kept its addend.
Where a sum of addresses or offsets exceeds 32 bits there is no program. -/
theorem link_relocatable_references (declared : ∀ object ∈ modules, object.RefersToDeclared)
    (succeeded : link modules .relocatable = .ok linked) : KeepsReferences modules linked := by
  obtain ⟨first, rest, rfl⟩ : ∃ first rest, modules = first :: rest := by
    cases modules with
    | nil => cases succeeded
    | cons first rest => exact ⟨first, rest, rfl⟩
  obtain ⟨addressable, _, rfl⟩ := link_relocatable_iff.mp succeeded
  refine ⟨rfl, addressable, fun record member => ?_, fun name isImport isSymbol => ?_,
    fun name => mem_imports_iff, fun before object after split record isRecord inside => ?_⟩
  · obtain ⟨before, object, after, original, split, isRecord, rfl⟩ := mem_recordsFrom_iff.mp member
    have inModules : object ∈ first :: rest := by
      rw [split]
      exact List.mem_append_right _ List.mem_cons_self
    exact mem_names_or_imports_iff.mpr
      ⟨object, inModules, declared object inModules original isRecord⟩
  · obtain ⟨object, inModules, isExport⟩ := mem_names_iff.mp isSymbol
    exact (mem_imports_iff.mp isImport).2 object inModules isExport
  · refine ⟨mem_recordsFrom_iff.mpr ⟨before, object, after, record, split, isRecord, ?_⟩, ?_⟩
    · rw [Nat.zero_add]
    · show Relocation.field _ (joinedCode (first :: rest)) = _
      rw [split]
      exact field_joinedCode inside

/-- Three modules that refer to each other, with one import that remains. -/
theorem link_relocatable_references_calling_called :
    (∀ object ∈ [importingModule, callingModule, calledModule], object.RefersToDeclared) ∧
      ∃ linked, link [importingModule, callingModule, calledModule] .relocatable = .ok linked ∧
        KeepsReferences [importingModule, callingModule, calledModule] linked ∧
        linked.imports = ["D"] ∧
        linked.relocations = [.word 0 "B", .word 3 "D", .displacement 6 "B", .address20 9 "B",
          .word 13 "A", .word 16 "B"] := by
  have declared : ∀ object ∈ [importingModule, callingModule, calledModule],
      object.RefersToDeclared := by decide +kernel
  obtain ⟨linked, succeeded⟩ : ∃ linked,
      link [importingModule, callingModule, calledModule] .relocatable = .ok linked := ⟨_, rfl⟩
  refine ⟨declared, linked, succeeded, link_relocatable_references declared succeeded, ?_, ?_⟩
  · cases succeeded
    decide +kernel
  · cases succeeded
    decide +kernel

end Sicxe.Object
