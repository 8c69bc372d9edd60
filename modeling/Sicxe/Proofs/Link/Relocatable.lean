import Sicxe.Proofs.Link.Layout
import Sicxe.Proofs.Machine.Loading

/-!
# Relocatable linking

Relocatable linking followed by loading does what absolute linking does at the addresses that the
modules are loaded to. Both come to the same run of fix-ups over the concatenated code, under the
same table of exports:

* `Object.link_laidOut_iff`: absolute linking of the moved modules.
* `Object.linkRelocatable_eq_ok_iff`: when modules have a relocatable program. They must be
  `Object.Addressable`: no sum of addresses or offsets exceeds 32 bits. Where one does, the linker
  stops with `LinkError.overflow` (`Object.linkRelocatable_overflow_iff`).
* `Object.load_relocatable_iff`: loading of the relocatable program.
* `Object.load_link_relocatable`: both fail on the same modules, and both lead to the same machine.
-/

namespace Sicxe

open Relocation (FixedBy)

namespace Object

variable {first linked : Object} {rest modules : List Object} {base : UInt32} {machine : Machine}

/-! ### The moved modules -/

/-- The exports of modules that lie one after another from `base` on. -/
def exportTable (base : UInt32) (modules : List Object) : SymbolTable :=
  ⟨(laidOut base.toNat modules).flatMap fun moved => moved.symbols.exported⟩

/-- Every import of the modules is in a table. -/
def ImportsIn (modules : List Object) (table : SymbolTable) : Prop :=
  ∀ object ∈ modules, ∀ name ∈ object.imports, table.contains name = true

/-- The concatenated code of modules, fixed up for the address `base`. -/
def FixedAt (base : UInt32) (modules : List Object) (code : Array UInt8) : Prop :=
  FixedBy (exportTable base modules).address? base.toNat (recordsFrom 0 modules)
    (joinedCode modules) code

/-- The absolute program of modules that lie one after another. -/
def absoluteProgram (first : Object) (rest : List Object) (base : UInt32) (code : Array UInt8) :
    Object where
  name := first.name
  start := base
  entry := base + (first.entry - first.start)
  code
  symbols := exportTable base (first :: rest)
  fullyRelocated := true

theorem forall_laidOut (property : List String → List Relocation → Prop) {address : Nat} :
    (∀ moved ∈ laidOut address modules, property moved.imports moved.relocations) ↔
      ∀ object ∈ modules, property object.imports object.relocations := by
  induction modules generalizing address with
  | nil => exact ⟨fun _ _ member => (by cases member), fun _ _ member => by cases member⟩
  | cons object rest ih =>
    rw [laidOut, List.forall_mem_cons, List.forall_mem_cons, ih]
    rfl

theorem mem_recordsFrom (position : Nat) {object : Object} {record : Relocation}
    (member : object ∈ modules) (isRecord : record ∈ object.relocations) :
    ∃ distance, record.shifted distance ∈ recordsFrom position modules := by
  induction modules generalizing position with
  | nil => cases member
  | cons head rest ih =>
    rw [recordsFrom]
    rcases List.mem_cons.mp member with rfl | member
    · exact ⟨position, List.mem_append_left _ (List.mem_map_of_mem isRecord)⟩
    · obtain ⟨distance, inRest⟩ := ih (position + head.length) member
      exact ⟨distance, List.mem_append_right _ inRest⟩

/-- A run of fix-ups has found every symbol of the records. -/
theorem references_in_of_fixed {code : Array UInt8}
    (imports : ImportsIn modules (exportTable base modules)) (fixed : FixedAt base modules code) :
    ∀ object ∈ modules, ∀ name ∈ object.imports ++ object.relocations.map Relocation.symbol,
      (exportTable base modules).contains name = true := by
  intro object member name isReference
  rcases List.mem_append.mp isReference with isImport | isSymbol
  · exact imports object member name isImport
  · obtain ⟨record, isRecord, rfl⟩ := List.mem_map.mp isSymbol
    obtain ⟨distance, shifted⟩ := mem_recordsFrom 0 member isRecord
    obtain ⟨address, found⟩ := fixed.found _ shifted
    exact SymbolTable.contains_iff_address?.mpr ⟨address, found⟩

/-- **When moved modules are linked at their starts**, and what the program is. -/
theorem link_laidOut_iff
    (inside : ∀ object ∈ first :: rest, ∀ record ∈ object.relocations,
      record.inside object.code.size)
    (bound : base.toNat + totalLength (first :: rest) < 0x100000000) :
    link (laidOut base.toNat (first :: rest)) .absolute = .ok linked ↔
      (exportTable base (first :: rest)).names.Nodup ∧
        ImportsIn (first :: rest) (exportTable base (first :: rest)) ∧
        ∃ code, FixedAt base (first :: rest) code ∧
          linked = absoluteProgram first rest base code := by
  have span := span_laidOut (List.cons_ne_nil first rest) bound
  have placing : ∀ code, (atStarts (laidOut base.toNat (first :: rest))).foldlM
        (placeInImage (exportTable base (first :: rest)) base.toNat)
        (blankImage (Section.ofStarts (laidOut base.toNat (first :: rest)))) = .ok code ↔
      FixedAt base (first :: rest) code := by
    intro code
    refine foldlM_placeInImage_laidOut 0
      (fun placed member => (Section.of_mem_zip_ofStarts member).1)
      (by rw [Section.length_ofStarts, length_laidOut]) (by omega) inside ⟨?_, ?_, ?_, ?_⟩
    · rw [blankImage, Array.size_replicate, span, size_joinedCode, Nat.add_sub_cancel_left]
    · rw [size_joinedCode, Nat.zero_add]
    · exact fun _ impossible => absurd impossible (Nat.not_lt_zero _)
    · exact toList_joinedCode _
  have names : (exportTable base (first :: rest)).names =
      ((laidOut base.toNat (first :: rest)).flatMap fun moved => moved.symbols.exported).map
        Symbol.name := rfl
  have resolved := checkResolved_atStarts_iff (laidOut base.toNat (first :: rest))
    (exportTable base (first :: rest))
  rw [forall_laidOut (fun imports records => ∀ name ∈ imports ++
    records.map Relocation.symbol, (exportTable base (first :: rest)).contains name = true)]
    at resolved
  show linkAbsolute (first.movedTo (UInt32.ofNat base.toNat))
    (laidOut (base.toNat + first.length) rest) = .ok linked ↔ _
  rw [linkAbsolute_eq_ok_iff]
  show (∃ globals code,
    Section.atStarts (laidOut base.toNat (first :: rest)) =
      .ok (Section.ofStarts (laidOut base.toNat (first :: rest))) ∧
    PlacedObject.globals (atStarts (laidOut base.toNat (first :: rest))) = .ok globals ∧
    PlacedObject.checkResolved globals (atStarts (laidOut base.toNat (first :: rest))) = .ok () ∧
    (atStarts (laidOut base.toNat (first :: rest))).foldlM (placeInImage globals
      (Section.span (Section.ofStarts (laidOut base.toNat (first :: rest)))).1)
      (blankImage (Section.ofStarts (laidOut base.toNat (first :: rest)))) = .ok code ∧
    linked = {
      name := first.name
      start := UInt32.ofNat
        (Section.span (Section.ofStarts (laidOut base.toNat (first :: rest)))).1
      entry := UInt32.ofNat base.toNat + (first.entry - first.start)
      code
      symbols := globals
      fullyRelocated := true }) ↔ _
  rw [span, UInt32.ofNat_toNat]
  simp only [PlacedObject.globals_eq_ok_iff, flatMap_exports_atStarts, ← names]
  constructor
  · rintro ⟨globals, code, _, ⟨unique, rfl⟩, checked, placed, rfl⟩
    refine ⟨unique, fun object member name isImport => ?_, code, (placing code).mp placed, rfl⟩
    exact resolved.mp checked object member name (List.mem_append_left _ isImport)
  · rintro ⟨unique, imports, code, fixed, rfl⟩
    exact ⟨_, code, atStarts_laidOut bound, ⟨unique, rfl⟩,
      resolved.mpr (references_in_of_fixed imports fixed), (placing code).mpr fixed, rfl⟩

/-! ### The relocatable program -/

/-- The modules laid end to end from address 0. -/
def endToEnd (modules : List Object) : List PlacedObject :=
  modules.zip (Section.endToEndFrom 0 0 modules)

/-- Modules have room end to end: the last one ends at an address of 32 bits, and every moved record
has an offset of 32 bits. -/
structure Addressable (modules : List Object) : Prop where
  length : totalLength modules < Numeral.wordBound
  records : ∀ record ∈ recordsFrom 0 modules, record.Addressable

theorem addressable_iff : Addressable modules ↔ totalLength modules < Numeral.wordBound ∧
    ∀ record ∈ recordsFrom 0 modules, record.Addressable :=
  ⟨fun ⟨length, records⟩ => ⟨length, records⟩, fun ⟨length, records⟩ => ⟨length, records⟩⟩

theorem addressable_endToEndFrom_iff (index : Nat) (small : position < Numeral.wordBound) :
    (∀ range ∈ Section.endToEndFrom position index modules, range.Addressable) ↔
      position + totalLength modules < Numeral.wordBound := by
  induction modules generalizing position index with
  | nil => exact ⟨fun _ => small, fun _ _ member => by cases member⟩
  | cons object rest ih =>
    rw [Section.endToEndFrom, List.forall_mem_cons, totalLength_cons]
    show position + object.length < Numeral.wordBound ∧ _ ↔ _
    constructor
    · rintro ⟨inside, later⟩
      have := (ih (index + 1) inside).mp later
      omega
    · intro bound
      have inside : position + object.length < Numeral.wordBound := by omega
      exact ⟨inside, (ih (index + 1) inside).mpr (by omega)⟩

/-- **Modules are laid end to end** where the last of them ends at an address. -/
theorem endToEnd_eq_ok_iff {sections : List Section} :
    Section.endToEnd modules = .ok sections ↔
      totalLength modules < Numeral.wordBound ∧ sections = Section.endToEndFrom 0 0 modules := by
  rw [Section.endToEnd, Section.checked_eq_ok_iff, addressable_endToEndFrom_iff 0 (by decide),
    Nat.zero_add]

/-- Records inside the code of their own modules lie in front of the end of all modules. -/
theorem offset_lt_of_mem_recordsFrom
    (inside : ∀ object ∈ modules, ∀ record ∈ object.relocations, record.inside object.code.size) :
    ∀ record ∈ recordsFrom position modules, record.offset < position + totalLength modules := by
  induction modules generalizing position with
  | nil => exact fun _ member => by cases member
  | cons object rest ih =>
    rw [totalLength_cons]
    intro record member
    rcases List.mem_append.mp member with here | later
    · obtain ⟨original, inObject, rfl⟩ := List.mem_map.mp here
      obtain ⟨least, _, bound⟩ := inside object List.mem_cons_self original inObject
      have length : object.length = object.code.size := rfl
      show original.offset + position < _
      omega
    · have := ih (fun other inRest => inside other (List.mem_cons_of_mem _ inRest)) record later
      omega

/-- Where every field lies inside its own module, modules that end at addresses have room. -/
theorem addressable_of_inside_modules
    (inside : ∀ object ∈ modules, ∀ record ∈ object.relocations, record.inside object.code.size)
    (bound : totalLength modules < Numeral.wordBound) : Addressable modules := by
  refine ⟨bound, fun record member => ?_⟩
  have inCode := offset_lt_of_mem_recordsFrom inside record member
  unfold Relocation.Addressable
  omega

theorem flatMap_placedRelocations (modules : List Object) (position index : Nat) :
    (modules.zip (Section.endToEndFrom position index modules)).flatMap placedRelocations =
      recordsFrom position modules := by
  induction modules generalizing position index with
  | nil => rfl
  | cons object rest ih =>
    rw [Section.endToEndFrom, List.zip_cons_cons, List.flatMap_cons, ih]
    rfl

theorem movedRelocations_eq_ok_iff {records : List Relocation} :
    movedRelocations (endToEnd modules) = .ok records ↔
      (∀ record ∈ recordsFrom 0 modules, record.Addressable) ∧ records = recordsFrom 0 modules := by
  have moved : (endToEnd modules).flatMap placedRelocations = recordsFrom 0 modules :=
    flatMap_placedRelocations modules 0 0
  rw [← moved]
  exact ite_ok_eq_ok_iff

/-- **Modules have a relocatable program** when they have room end to end and export no name
twice. -/
theorem linkRelocatable_eq_ok_iff :
    linkRelocatable first rest = .ok linked ↔
      Addressable (first :: rest) ∧
      (((endToEnd (first :: rest)).flatMap PlacedObject.exports).map Symbol.name).Nodup ∧
        linked = {
          name := first.name
          start := 0
          entry := first.entry - first.start
          code := joinedCode (first :: rest)
          symbols := ⟨(endToEnd (first :: rest)).flatMap PlacedObject.exports⟩
          imports := openImports ⟨(endToEnd (first :: rest)).flatMap PlacedObject.exports⟩
            (first :: rest)
          relocations := recordsFrom 0 (first :: rest)
          fullyRelocated := false } := by
  unfold linkRelocatable
  simp only [bind_eq_ok_iff, pure_eq_ok_iff, PlacedObject.globals_eq_ok_iff, endToEnd_eq_ok_iff]
  constructor
  · rintro ⟨_, ⟨length, rfl⟩, globals, ⟨unique, rfl⟩, _, moved, rfl⟩
    obtain ⟨records, rfl⟩ := movedRelocations_eq_ok_iff.mp moved
    exact ⟨⟨length, records⟩, unique, rfl⟩
  · rintro ⟨addressable, unique, rfl⟩
    exact ⟨_, ⟨addressable.length, rfl⟩, _, ⟨unique, rfl⟩, _,
      movedRelocations_eq_ok_iff.mpr ⟨addressable.records, rfl⟩, rfl⟩

/-- **A sum beyond 32 bits stops the linker**, where no name is exported twice. -/
theorem linkRelocatable_overflow_iff
    (unique : (((endToEnd (first :: rest)).flatMap PlacedObject.exports).map Symbol.name).Nodup) :
    linkRelocatable first rest = .error .overflow ↔ ¬ Addressable (first :: rest) := by
  constructor
  · intro stopped addressable
    cases stopped.symm.trans (linkRelocatable_eq_ok_iff.mpr ⟨addressable, unique, rfl⟩)
  · intro beyond
    rw [addressable_iff, not_and] at beyond
    unfold linkRelocatable
    by_cases length : totalLength (first :: rest) < Numeral.wordBound
    · have sections := endToEnd_eq_ok_iff.mpr ⟨length, rfl⟩
      have collected := PlacedObject.globals_eq_ok_iff.mpr ⟨unique, rfl⟩
      have records : movedRelocations (endToEnd (first :: rest)) = .error .overflow := by
        refine if_neg ?_
        rw [endToEnd, flatMap_placedRelocations]
        exact beyond length
      unfold endToEnd at collected records
      simp only [sections, bind, Except.bind, collected, records]
    · have sections : Section.endToEnd (first :: rest) = .error .overflow := by
        refine if_neg ?_
        rwa [addressable_endToEndFrom_iff 0 (by decide), Nat.zero_add]
      simp only [sections, bind, Except.bind]

/-- The symbols of a common table are all exported. -/
theorem exported_flatMap_exports (placed : List PlacedObject) :
    (⟨placed.flatMap PlacedObject.exports⟩ : SymbolTable).exported =
      placed.flatMap PlacedObject.exports := by
  refine List.filter_eq_self.mpr fun symbol member => ?_
  obtain ⟨_, _, isExport⟩ := List.mem_flatMap.mp member
  exact (List.mem_filter.mp isExport).2

/-- The table of the relocatable program moved to the base. -/
theorem rebased_exports_endToEnd (modules : List Object) (base : UInt32) :
    (⟨(endToEnd modules).flatMap PlacedObject.exports⟩ : SymbolTable).rebased 0 base =
      exportTable base modules := by
  have moved := exports_laidOut modules base.toNat 0 0
  rw [Nat.add_zero, UInt32.ofNat_toNat] at moved
  exact congrArg SymbolTable.mk moved

theorem mem_foldl_addName {names added : List String} {name : String} :
    name ∈ added.foldl addName names ↔ name ∈ names ∨ name ∈ added := by
  induction added generalizing names with
  | nil => simp only [List.foldl_nil, List.not_mem_nil, or_false]
  | cons head rest ih => rw [List.foldl_cons, ih, mem_addName, List.mem_cons, or_assoc]

/-- The open imports are those imports of the modules that no module exports. -/
theorem mem_openImports {globals : SymbolTable} {name : String} :
    name ∈ openImports globals modules ↔
      ∃ object ∈ modules, name ∈ object.imports ∧ globals.contains name = false := by
  simp only [openImports, mem_foldl_addName, List.not_mem_nil, false_or, List.mem_flatMap,
    List.mem_filter, Bool.not_eq_true']

/-- A program has no open import in a table with its own names exactly when every import of its
modules is in the table. -/
theorem openImports_in_iff {globals table : SymbolTable} (names : table.names = globals.names) :
    (∀ name ∈ openImports globals modules, table.contains name = true) ↔
      ImportsIn modules table := by
  have same : ∀ name, table.contains name = globals.contains name := by
    intro name
    rw [Bool.eq_iff_iff, SymbolTable.contains_iff, SymbolTable.contains_iff, names]
  constructor
  · intro contained object member name isImport
    cases absent : table.contains name with
    | true => rfl
    | false =>
      rw [same] at absent
      have present := contained name (mem_openImports.mpr ⟨object, member, isImport, absent⟩)
      rw [same, absent] at present
      cases present
  · intro imports name member
    obtain ⟨object, inModules, isImport, _⟩ := mem_openImports.mp member
    exact imports object inModules name isImport

/-- What loading a program of modules from `base` on comes to. -/
def loadedProgram (machine : Machine) (first : Object) (rest : List Object) (base : UInt32)
    (code : Array UInt8) : Machine × LoadReport :=
  (machine.loadedAt base code (base + (first.entry - first.start)),
    ⟨base, totalLength (first :: rest), base + (first.entry - first.start),
      exportTable base (first :: rest)⟩)

/-- **When the relocatable program is loaded**, and what the machine is then. -/
theorem load_relocatable_iff {result : Machine × LoadReport}
    (succeeded : link (first :: rest) .relocatable = .ok linked)
    (room : base.toNat + totalLength (first :: rest) ≤ machine.memory.size) :
    machine.load linked (some base) = .ok result ↔
      ImportsIn (first :: rest) (exportTable base (first :: rest)) ∧
        ∃ code, FixedAt base (first :: rest) code ∧
          result = loadedProgram machine first rest base code := by
  obtain ⟨_, _, rfl⟩ := linkRelocatable_eq_ok_iff.mp succeeded
  rw [Machine.load_eq_ok_iff]
  simp only [loadBase, Bool.false_eq_true, if_false, Option.getD_some, symbolsAt, entryAt,
    rebased_exports_endToEnd, codeAt_eq_ok_iff, UInt32.sub_zero]
  have names : (exportTable base (first :: rest)).names =
      (⟨(endToEnd (first :: rest)).flatMap PlacedObject.exports⟩ : SymbolTable).names := by
    rw [← rebased_exports_endToEnd, SymbolTable.names_rebased]
  rw [openImports_in_iff names]
  have length : (joinedCode (first :: rest)).size = totalLength (first :: rest) :=
    size_joinedCode _
  constructor
  · rintro ⟨code, ⟨fixed, imports⟩, _, rfl⟩
    refine ⟨imports, code, fixed, ?_⟩
    rw [loadedProgram, ← length]
    rfl
  · rintro ⟨imports, code, fixed, rfl⟩
    refine ⟨code, ⟨fixed, imports⟩, ?_, ?_⟩
    · rw [fixed.size_eq, length]
      exact room
    · rw [loadedProgram, ← length]
      rfl

/-- The absolute program is loaded where it was linked. -/
theorem load_absoluteProgram {code : Array UInt8} (fixed : FixedAt base (first :: rest) code)
    (room : base.toNat + totalLength (first :: rest) ≤ machine.memory.size)
    (anyBase : Option UInt32) :
    machine.load (absoluteProgram first rest base code) anyBase =
      .ok (loadedProgram machine first rest base code) := by
  have size : code.size = totalLength (first :: rest) := fixed.size_eq.trans (size_joinedCode _)
  have table : (exportTable base (first :: rest)).rebased base base =
      exportTable base (first :: rest) := by
    simp only [SymbolTable.rebased, rebased_self, List.map_id']
  have entry : base + (base + (first.entry - first.start) - base) =
      base + (first.entry - first.start) := by
    rw [UInt32.add_comm base (_ - base), UInt32.sub_add_cancel]
  refine Machine.load_eq_ok_iff.mpr ⟨code, codeAt_eq_ok_iff.mpr ⟨.nil code, fun _ member => ?_⟩,
    ?_, ?_⟩
  · cases member
  · show base.toNat + code.size ≤ _
    rw [size]
    exact room
  · show _ = (machine.loadedAt base code (base + (base + (first.entry - first.start) - base)),
      (⟨base, code.size, base + (base + (first.entry - first.start) - base),
        (exportTable base (first :: rest)).rebased base base⟩ : LoadReport))
    rw [entry, table, size, loadedProgram]

/-- The tables of both programs have the same names. -/
theorem nodup_endToEnd_iff (modules : List Object) (base : UInt32) :
    (((endToEnd modules).flatMap PlacedObject.exports).map Symbol.name).Nodup ↔
      (exportTable base modules).names.Nodup := by
  rw [← rebased_exports_endToEnd, SymbolTable.names_rebased]
  rfl

/-- **Relocatable linking followed by loading equals absolute linking at the same placement.** -/
theorem load_link_relocatable {modules : List Object} {base : UInt32} {machine : Machine}
    (nonempty : modules ≠ [])
    (inside : ∀ object ∈ modules, ∀ record ∈ object.relocations, record.inside object.code.size)
    (bound : base.toNat + totalLength modules < 0x100000000)
    (room : base.toNat + totalLength modules ≤ machine.memory.size) :
    ((∃ absolute, link (laidOut base.toNat modules) .absolute = .ok absolute) ↔
      ∃ relocatable, link modules .relocatable = .ok relocatable ∧
        ∃ loaded, machine.load relocatable (some base) = .ok loaded) ∧
    ∀ absolute relocatable, link (laidOut base.toNat modules) .absolute = .ok absolute →
      link modules .relocatable = .ok relocatable → ∀ anyBase, ∃ loaded,
        machine.load absolute anyBase = .ok loaded ∧
          machine.load relocatable (some base) = .ok loaded := by
  obtain ⟨first, rest, rfl⟩ := List.exists_cons_of_ne_nil nonempty
  have addressable : Addressable (first :: rest) :=
    addressable_of_inside_modules inside (Nat.lt_of_le_of_lt (Nat.le_add_left _ _) bound)
  constructor
  · constructor
    · rintro ⟨absolute, succeeded⟩
      obtain ⟨unique, imports, code, fixed, _⟩ := (link_laidOut_iff inside bound).mp succeeded
      have linked := linkRelocatable_eq_ok_iff.mpr
        ⟨addressable, (nodup_endToEnd_iff (first :: rest) base).mpr unique, rfl⟩
      exact ⟨_, linked, _, (load_relocatable_iff linked room).mpr ⟨imports, code, fixed, rfl⟩⟩
    · rintro ⟨relocatable, linked, loaded, succeeded⟩
      obtain ⟨_, unique, _⟩ := linkRelocatable_eq_ok_iff.mp linked
      obtain ⟨imports, code, fixed, _⟩ := (load_relocatable_iff linked room).mp succeeded
      exact ⟨_, (link_laidOut_iff inside bound).mpr
        ⟨(nodup_endToEnd_iff (first :: rest) base).mp unique, imports, code, fixed, rfl⟩⟩
  · intro absolute relocatable succeeded linked anyBase
    obtain ⟨_, imports, code, fixed, rfl⟩ := (link_laidOut_iff inside bound).mp succeeded
    exact ⟨_, load_absoluteProgram fixed room anyBase,
      (load_relocatable_iff linked room).mpr ⟨imports, code, fixed, rfl⟩⟩

/-- Two modules that refer to each other, linked and loaded in both ways at address 256. -/
theorem load_link_relocatable_calling_called :
    ∃ absolute relocatable loaded,
      link (laidOut (256 : UInt32).toNat [callingModule, calledModule]) .absolute = .ok absolute ∧
      link [callingModule, calledModule] .relocatable = .ok relocatable ∧
      ({ memory := Memory.zeros 1024 } : Machine).load absolute none = .ok loaded ∧
      ({ memory := Memory.zeros 1024 } : Machine).load relocatable (some 256) = .ok loaded := by
  have loads : ∃ relocatable, link [callingModule, calledModule] .relocatable = .ok relocatable ∧
      ∃ loaded, ({ memory := Memory.zeros 1024 } : Machine).load relocatable (some 256) =
        .ok loaded :=
    ⟨_, rfl, exists_ok_of_isSome (by decide +kernel)⟩
  obtain ⟨same, agree⟩ := @load_link_relocatable [callingModule, calledModule] 256
    { memory := Memory.zeros 1024 } (List.cons_ne_nil _ _) (by decide) (by decide)
    (by decide +kernel)
  obtain ⟨absolute, linked⟩ := same.mpr loads
  obtain ⟨relocatable, relocatableLinked, _⟩ := loads
  obtain ⟨loaded, absoluteLoads, relocatableLoads⟩ :=
    agree absolute relocatable linked relocatableLinked none
  exact ⟨absolute, relocatable, loaded, linked, relocatableLinked, absoluteLoads, relocatableLoads⟩

end Object

end Sicxe
