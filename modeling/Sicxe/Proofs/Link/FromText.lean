import Sicxe.Proofs.Link.Relocatable
import Sicxe.Proofs.Object.RoundTrip

/-!
# Linking modules read back from their texts

Object text does not tell constants from addresses, so that a module read back from its text moves
the constants that it exports. Apart from that, linking does not see the difference.

* `Object.link_absolute_readBack`: at their own starts the modules read back make the same program,
  with every symbol as an address.
* `Object.link_relocatable_readBack`: laid end to end they make the same program up to the addresses
  in its table.
* `Object.toText_link_ofText`: the programs have the same text exactly when no module that exports
  a constant is moved.
-/

namespace Sicxe

namespace SymbolTable

/-- The table with every symbol taken for an address. -/
def asAddresses (table : SymbolTable) : SymbolTable :=
  ⟨table.symbols.map Symbol.asAddress⟩

theorem names_asAddresses (table : SymbolTable) : table.asAddresses.names = table.names := by
  rw [names, asAddresses, List.map_map]
  rfl

theorem address?_asAddresses (table : SymbolTable) (name : String) :
    table.asAddresses.address? name = table.address? name := by
  simp only [address?, get?, asAddresses, List.find?_map, Option.map_map]
  rfl

theorem exported_asAddresses (table : SymbolTable) :
    table.asAddresses.exported = table.exported.map Symbol.asAddress := by
  rw [exported, asAddresses, List.filter_map]
  rfl

/-- What is asked of a table depends on its names only. -/
theorem contains_eq_of_names {table other : SymbolTable} (same : table.names = other.names)
    (name : String) : table.contains name = other.contains name := by
  rw [Bool.eq_iff_iff, contains_iff, contains_iff, same]

end SymbolTable

namespace Object

variable {first linked relinked : Object} {rest modules : List Object}

/-! ### Sections and exports -/

theorem ofStarts_readBack (modules : List Object) :
    Section.ofStarts (modules.map readBack) = Section.ofStarts modules := by
  rw [Section.ofStarts, List.zipIdx_map, List.map_map]
  rfl

theorem atStarts_readBack (modules : List Object) :
    Section.atStarts (modules.map readBack) = Section.atStarts modules := by
  rw [Section.atStarts, Section.atStarts, ofStarts_readBack]

theorem endToEndFrom_readBack (modules : List Object) (address position : Nat) :
    Section.endToEndFrom address position (modules.map readBack) =
      Section.endToEndFrom address position modules := by
  induction modules generalizing address position with
  | nil => rfl
  | cons object rest ih =>
    rw [List.map_cons, Section.endToEndFrom, Section.endToEndFrom, ← ih]
    rfl

/-- The exports of a module read back are those of the module, each moved as an address. -/
theorem exports_readBack (object : Object) (range : Section) :
    PlacedObject.exports (object.readBack, range) = object.symbols.exported.map fun symbol =>
      symbol.asAddress.rebased object.start (UInt32.ofNat range.begin) := by
  have exported : object.readBack.symbols.exported =
      object.symbols.exported.map Symbol.asAddress := by
    show (⟨object.symbols.exported⟩ : SymbolTable).asAddresses.exported = _
    rw [SymbolTable.exported_asAddresses]
    simp only [SymbolTable.exported, List.filter_filter, Bool.and_self]
  show (object.readBack.symbols.rebased object.start (UInt32.ofNat range.begin)).exported = _
  rw [exported_rebased, exported, List.map_map]
  rfl

/-- At its own start a module exports the same symbols as addresses. -/
theorem exports_readBack_at_start {object : Object} {range : Section}
    (begins : range.begin = object.start.toNat) :
    PlacedObject.exports (object.readBack, range) =
      (PlacedObject.exports (object, range)).map Symbol.asAddress := by
  rw [exports_readBack, exports_at_start begins, begins, UInt32.ofNat_toNat]
  simp only [rebased_self]

theorem flatMap_exports_atStarts_readBack (modules : List Object) :
    (atStarts (modules.map readBack)).flatMap PlacedObject.exports =
      ((atStarts modules).flatMap PlacedObject.exports).map Symbol.asAddress := by
  rw [atStarts, ofStarts_readBack, List.zip_map_left, List.flatMap_map, List.map_flatMap]
  exact List.flatMap_congr fun placed member =>
    exports_readBack_at_start (Section.of_mem_zip_ofStarts member).1

/-! ### Linking at the own starts -/

/-- The program with every symbol taken for an address. -/
def withAddresses (object : Object) : Object :=
  { object with symbols := object.symbols.asAddresses }

/-- Text does not tell constants apart. -/
theorem toText_withAddresses (object : Object) : object.withAddresses.toText = object.toText := by
  have records : object.withAddresses.records = object.records := by
    rw [records_eq, records_eq]
    show _ ++ object.symbols.asAddresses.exported.map symbolRecord ++ _ ++ _ ++ _ ++ _ = _
    rw [SymbolTable.exported_asAddresses, List.map_map]
    rfl
  rw [toText, toText, records]

theorem checkResolved_readBack (table : SymbolTable) (modules : List Object) :
    PlacedObject.checkResolved table.asAddresses (atStarts (modules.map readBack)) = .ok () ↔
      PlacedObject.checkResolved table (atStarts modules) = .ok () := by
  have contains : ∀ name, table.asAddresses.contains name = table.contains name :=
    SymbolTable.contains_eq_of_names table.names_asAddresses
  rw [checkResolved_atStarts_iff, checkResolved_atStarts_iff, List.forall_mem_map]
  simp only [contains]
  rfl

/-- A module read back takes its place in an image like the module itself. -/
theorem placeInImage_readBack (globals : SymbolTable) (start : Nat) (image : Array UInt8)
    (object : Object) (range : Section) :
    placeInImage globals.asAddresses start image (object.readBack, range) =
      placeInImage globals start image (object, range) := by
  have fixUps : fixUp globals.asAddresses start (range.begin - start) range.name =
      fixUp globals start (range.begin - start) range.name := by
    funext image record
    rw [fixUp, fixUp, SymbolTable.address?_asAddresses]
  show object.relocations.foldlM (fixUp globals.asAddresses start (range.begin - start) range.name)
    (Bytes.write image (range.begin - start) object.code.toList) = _
  rw [fixUps]
  rfl

theorem foldlM_placeInImage_readBack (globals : SymbolTable) (start : Nat) (image : Array UInt8)
    (modules : List Object) :
    (atStarts (modules.map readBack)).foldlM (placeInImage globals.asAddresses start) image =
      (atStarts modules).foldlM (placeInImage globals start) image := by
  rw [atStarts, ofStarts_readBack, List.zip_map_left, List.foldlM_map]
  congr 1
  funext image placed
  exact placeInImage_readBack globals start image placed.1 placed.2

/-- The common table of the modules read back holds the same symbols as addresses. -/
theorem globals_atStarts_readBack {table : SymbolTable} :
    PlacedObject.globals (atStarts (modules.map readBack)) = .ok table ↔
      ∃ globals, PlacedObject.globals (atStarts modules) = .ok globals ∧
        table = globals.asAddresses := by
  have names : ∀ symbols : List Symbol,
      (symbols.map Symbol.asAddress).map Symbol.name = symbols.map Symbol.name := by
    intro symbols
    rw [List.map_map]
    rfl
  simp only [PlacedObject.globals_eq_ok_iff, flatMap_exports_atStarts_readBack, names]
  constructor
  · rintro ⟨unique, rfl⟩
    exact ⟨_, ⟨unique, rfl⟩, rfl⟩
  · rintro ⟨globals, ⟨unique, rfl⟩, rfl⟩
    exact ⟨unique, rfl⟩

/-- **At their own starts the modules read back make the same program**, with every symbol as an
address. -/
theorem link_absolute_readBack :
    link (modules.map readBack) .absolute = .ok relinked ↔
      ∃ linked, link modules .absolute = .ok linked ∧ relinked = linked.withAddresses := by
  cases modules with
  | nil => simp only [List.map_nil, link, reduceCtorEq, false_and, exists_false]
  | cons first rest =>
    show linkAbsolute first.readBack (rest.map readBack) = .ok relinked ↔
      ∃ linked, linkAbsolute first rest = .ok linked ∧ relinked = linked.withAddresses
    simp only [linkAbsolute_eq_ok_iff, ← List.map_cons, globals_atStarts_readBack,
      atStarts_readBack, ofStarts_readBack]
    constructor
    · rintro ⟨_, code, accepted, ⟨globals, collected, rfl⟩, checked, placed, rfl⟩
      rw [checkResolved_readBack] at checked
      rw [foldlM_placeInImage_readBack] at placed
      exact ⟨_, ⟨globals, code, accepted, collected, checked, placed, rfl⟩, rfl⟩
    · rintro ⟨_, ⟨globals, code, accepted, collected, checked, placed, rfl⟩, rfl⟩
      refine ⟨_, code, accepted, ⟨globals, collected, rfl⟩, ?_, ?_, rfl⟩
      · rwa [checkResolved_readBack]
      · rwa [foldlM_placeInImage_readBack]

/-! ### Linking end to end -/

/-- A symbol that is moved as an address is written like the symbol itself, unless it is a constant
and the program moves. -/
theorem symbolRecord_asAddress_iff (symbol : Symbol) (origin target : UInt32) :
    symbolRecord (symbol.asAddress.rebased origin target) =
        symbolRecord (symbol.rebased origin target) ↔
      (symbol.absolute = true → target = origin) := by
  cases isConstant : symbol.absolute with
  | false =>
    have same : symbol.asAddress = symbol := by rw [Symbol.asAddress, ← isConstant]
    simp only [same, Bool.false_eq_true, false_imp_iff]
  | true =>
    have kept : symbol.rebased origin target = symbol := by
      rw [Symbol.rebased, if_pos isConstant]
    have moved : symbolRecord (symbol.asAddress.rebased origin target) =
        [['D'], symbol.name.toList, Hex.padded 6 (target + (symbol.address - origin)).toNat] := rfl
    have cancelled : target + (symbol.address - origin) = symbol.address ↔ target = origin := by
      constructor
      · intro same
        refine (UInt32.add_right_inj (symbol.address - origin)).mp ?_
        rw [UInt32.add_comm, same, UInt32.sub_add_cancel]
      · rintro rfl
        rw [UInt32.add_comm, UInt32.sub_add_cancel]
    rw [kept, moved]
    simp only [symbolRecord, List.cons.injEq, true_and, and_true, true_imp_iff,
      (Hex.padded_injective 6).eq_iff, UInt32.toNat_inj, cancelled]

/-- The exported symbols of modules laid end to end, each with the module and its section. -/
def placedSymbols (modules : List Object) : List (PlacedObject × Symbol) :=
  (endToEnd modules).flatMap fun placed =>
    placed.1.symbols.exported.map fun symbol => (placed, symbol)

theorem flatMap_exports_endToEnd (modules : List Object) :
    (endToEnd modules).flatMap PlacedObject.exports = (placedSymbols modules).map fun exported =>
      exported.2.rebased exported.1.1.start (UInt32.ofNat exported.1.2.begin) := by
  rw [placedSymbols, List.map_flatMap]
  refine List.flatMap_congr fun placed _ => ?_
  rw [PlacedObject.exports, exported_rebased, List.map_map]
  rfl

theorem flatMap_exports_endToEnd_readBack (modules : List Object) :
    (endToEnd (modules.map readBack)).flatMap PlacedObject.exports =
      (placedSymbols modules).map fun exported =>
        exported.2.asAddress.rebased exported.1.1.start (UInt32.ofNat exported.1.2.begin) := by
  rw [placedSymbols, List.map_flatMap, endToEnd, endToEndFrom_readBack,
    List.zip_map_left, List.flatMap_map]
  refine List.flatMap_congr fun placed _ => ?_
  rw [List.map_map]
  exact exports_readBack placed.1 placed.2

/-- Both tables have the same names. -/
theorem names_endToEnd_readBack (modules : List Object) :
    ((endToEnd (modules.map readBack)).flatMap PlacedObject.exports).map Symbol.name =
      ((endToEnd modules).flatMap PlacedObject.exports).map Symbol.name := by
  rw [flatMap_exports_endToEnd_readBack, flatMap_exports_endToEnd, List.map_map, List.map_map]
  refine List.map_congr_left fun exported _ => ?_
  simp only [Function.comp, SymbolTable.name_rebased, Symbol.asAddress]

theorem openImports_readBack (modules : List Object) {table other : SymbolTable}
    (same : other.names = table.names) :
    openImports other (modules.map readBack) = openImports table modules := by
  simp only [openImports, List.flatMap_map, SymbolTable.contains_eq_of_names same]
  rfl

theorem recordsFrom_readBack (modules : List Object) (position : Nat) :
    recordsFrom position (modules.map readBack) = recordsFrom position modules := by
  induction modules generalizing position with
  | nil => rfl
  | cons object rest ih =>
    rw [List.map_cons, recordsFrom, recordsFrom, ← ih]
    rfl

theorem totalLength_readBack (modules : List Object) :
    totalLength (modules.map readBack) = totalLength modules := by
  induction modules with
  | nil => rfl
  | cons object rest ih =>
    rw [List.map_cons, totalLength_cons, totalLength_cons, ih]
    rfl

theorem addressable_readBack (modules : List Object) :
    Addressable (modules.map readBack) ↔ Addressable modules := by
  rw [addressable_iff, addressable_iff, totalLength_readBack, recordsFrom_readBack]

/-- **Laid end to end the modules read back make the same program**, up to the addresses in its
table. -/
theorem link_relocatable_readBack :
    link (modules.map readBack) .relocatable = .ok relinked ↔
      ∃ linked, link modules .relocatable = .ok linked ∧ relinked = { linked with
        symbols := ⟨(endToEnd (modules.map readBack)).flatMap PlacedObject.exports⟩ } := by
  cases modules with
  | nil => simp only [List.map_nil, link, reduceCtorEq, false_and, exists_false]
  | cons first rest =>
    have imports : openImports
        ⟨(endToEnd ((first :: rest).map readBack)).flatMap PlacedObject.exports⟩
        ((first :: rest).map readBack) =
      openImports ⟨(endToEnd (first :: rest)).flatMap PlacedObject.exports⟩ (first :: rest) :=
      openImports_readBack _ (names_endToEnd_readBack _)
    have code : joinedCode ((first :: rest).map readBack) = joinedCode (first :: rest) := by
      rw [joinedCode, List.foldl_map]
      rfl
    show linkRelocatable first.readBack (rest.map readBack) = .ok relinked ↔
      ∃ linked, linkRelocatable first rest = .ok linked ∧ _
    simp only [linkRelocatable_eq_ok_iff, ← List.map_cons, names_endToEnd_readBack, code,
      recordsFrom_readBack, addressable_readBack]
    constructor
    · rintro ⟨addressable, unique, rfl⟩
      refine ⟨_, ⟨addressable, unique, rfl⟩, ?_⟩
      rw [imports]
      rfl
    · rintro ⟨_, ⟨addressable, unique, rfl⟩, rfl⟩
      refine ⟨addressable, unique, ?_⟩
      rw [imports]
      rfl

/-! ### The text of the program -/

theorem of_mem_recordsFrom {position : Nat} {record : Relocation}
    (member : record ∈ recordsFrom position modules) :
    ∃ object ∈ modules, ∃ original ∈ object.relocations, ∃ distance,
      record = original.shifted distance := by
  induction modules generalizing position with
  | nil => cases member
  | cons object rest ih =>
    rcases List.mem_append.mp member with here | later
    · obtain ⟨original, inObject, rfl⟩ := List.mem_map.mp here
      exact ⟨object, List.mem_cons_self, original, inObject, position, rfl⟩
    · obtain ⟨other, inRest, found⟩ := ih later
      exact ⟨other, List.mem_cons_of_mem _ inRest, found⟩

/-- The names that a placed module exports are those of the module. -/
theorem isField_of_mem_exports {placed : PlacedObject} (names : placed.1.WritableNames)
    {symbol : Symbol} (member : symbol ∈ placed.exports) : IsField symbol.name.toList := by
  rw [PlacedObject.exports, exported_rebased] at member
  obtain ⟨original, inExported, rfl⟩ := List.mem_map.mp member
  rw [SymbolTable.name_rebased]
  exact names.symbols original inExported

theorem WritableNames.readBack {object : Object} (names : object.WritableNames) :
    object.readBack.WritableNames := by
  refine ⟨names.name, fun symbol member => ?_, names.imports, names.relocations⟩
  obtain ⟨original, inExported, rfl⟩ := List.mem_map.mp (List.mem_of_mem_filter member)
  exact names.symbols original inExported

/-- **A relocatable program has writable names** when its modules have. -/
theorem writableNames_of_relocatable (names : ∀ object ∈ modules, object.WritableNames)
    (succeeded : link modules .relocatable = .ok linked) : linked.WritableNames := by
  cases modules with
  | nil => cases succeeded
  | cons first rest =>
    obtain ⟨_, _, rfl⟩ := linkRelocatable_eq_ok_iff.mp succeeded
    refine ⟨(names first List.mem_cons_self).name, fun symbol member => ?_,
      fun name member => ?_, fun record member => ?_⟩
    · obtain ⟨placed, inPlaced, isExport⟩ := List.mem_flatMap.mp (List.mem_of_mem_filter member)
      exact isField_of_mem_exports (names _ (List.of_mem_zip inPlaced).1) isExport
    · obtain ⟨object, inModules, isImport, _⟩ := mem_openImports.mp member
      exact (names object inModules).imports name isImport
    · obtain ⟨object, inModules, original, inObject, _, rfl⟩ := of_mem_recordsFrom member
      exact (names object inModules).relocations original inObject

/-- No module that exports a constant is moved when the modules are laid end to end. -/
def ConstantsStay (modules : List Object) : Prop :=
  ∀ placed ∈ endToEnd modules, (∃ symbol ∈ placed.1.symbols.exported, symbol.absolute = true) →
    UInt32.ofNat placed.2.begin = placed.1.start

instance (modules : List Object) : Decidable (ConstantsStay modules) :=
  inferInstanceAs (Decidable (∀ placed ∈ endToEnd modules,
    (∃ symbol ∈ placed.1.symbols.exported, symbol.absolute = true) →
      UInt32.ofNat placed.2.begin = placed.1.start))

theorem constantsStay_iff : ConstantsStay modules ↔ ∀ exported ∈ placedSymbols modules,
    exported.2.absolute = true → UInt32.ofNat exported.1.2.begin = exported.1.1.start := by
  simp only [ConstantsStay, placedSymbols, List.forall_mem_flatMap, List.forall_mem_map]
  constructor
  · exact fun stay placed inPlaced symbol member isConstant =>
      stay placed inPlaced ⟨symbol, member, isConstant⟩
  · rintro stay placed inPlaced ⟨symbol, member, isConstant⟩
    exact stay placed inPlaced symbol member isConstant

/-- **Relocatable programs have the same text exactly when the exported constants stay.** -/
theorem toText_link_relocatable_readBack (names : ∀ object ∈ modules, object.WritableNames)
    (succeeded : link modules .relocatable = .ok linked)
    (again : link (modules.map readBack) .relocatable = .ok relinked) :
    relinked.toText = linked.toText ↔ ConstantsStay modules := by
  have linkedNames := writableNames_of_relocatable names succeeded
  have relinkedNames := writableNames_of_relocatable
    (List.forall_mem_map.mpr fun object member => (names object member).readBack) again
  obtain ⟨other, same, rfl⟩ := link_relocatable_readBack.mp again
  cases succeeded.symm.trans same
  have table : linked.symbols = ⟨(endToEnd modules).flatMap PlacedObject.exports⟩ := by
    cases modules with
    | nil => cases succeeded
    | cons first rest =>
      obtain ⟨_, _, rfl⟩ := linkRelocatable_eq_ok_iff.mp succeeded
      rfl
  calc _ ↔ _ = _ := ⟨records_eq_of_toText_eq relinkedNames linkedNames,
        fun same => by rw [toText, toText, same]⟩
    _ ↔ ((endToEnd (modules.map readBack)).flatMap PlacedObject.exports).map symbolRecord =
        ((endToEnd modules).flatMap PlacedObject.exports).map symbolRecord := by
      rw [records_eq, records_eq]
      show [linked.headerRecord] ++ (⟨(endToEnd (modules.map readBack)).flatMap
        PlacedObject.exports⟩ : SymbolTable).exported.map symbolRecord ++
          linked.imports.map importRecord ++ _ ++ linked.writtenRelocations.map _ ++
            [linked.entryRecord] = _ ↔ _
      rw [table, exported_flatMap_exports, exported_flatMap_exports]
      simp only [List.append_assoc, List.append_cancel_left_eq, List.append_cancel_right_eq]
    _ ↔ ConstantsStay modules := by
      rw [flatMap_exports_endToEnd_readBack, flatMap_exports_endToEnd, List.map_map, List.map_map,
        List.map_inj_left, constantsStay_iff]
      exact forall₂_congr fun exported _ => symbolRecord_asAddress_iff _ _ _

/-- The modules read back link exactly when the modules do. -/
theorem exists_link_readBack_iff (modules : List Object) (mode : LinkMode) :
    (∃ relinked, link (modules.map readBack) mode = .ok relinked) ↔
      ∃ linked, link modules mode = .ok linked := by
  cases mode with
  | absolute =>
    simp only [link_absolute_readBack]
    rw [exists_comm]
    simp only [exists_and_left, exists_eq, and_true]
  | relocatable =>
    simp only [link_relocatable_readBack]
    rw [exists_comm]
    simp only [exists_and_left, exists_eq, and_true]

/-- **Modules read back from their texts link exactly when the modules do.** The programs have the
same text unless a module that exports a constant is moved. -/
theorem toText_link_ofText (modules : List Object) (mode : LinkMode)
    (assembled : ∀ object ∈ modules,
      ∃ source placement, assemble source = .ok (placement, object)) :
    ∃ read, List.Forall₂ (fun object back => ofText object.toText = .ok back) modules read ∧
      ((∃ relinked, link read mode = .ok relinked) ↔ ∃ linked, link modules mode = .ok linked) ∧
      ∀ linked relinked, link modules mode = .ok linked → link read mode = .ok relinked →
        (relinked.toText = linked.toText ↔ mode = .absolute ∨ ConstantsStay modules) := by
  have textual : ∀ object ∈ modules, object.Textual := by
    intro object member
    obtain ⟨_, _, made⟩ := assembled object member
    exact assemble_textual made
  refine ⟨modules.map readBack, ?_, exists_link_readBack_iff modules mode, ?_⟩
  · rw [List.forall₂_map_right_iff]
    exact List.forall₂_same.mpr fun object member => ofText_toText (textual object member).legible
  · intro linked relinked succeeded again
    cases mode with
    | absolute =>
      obtain ⟨other, same, rfl⟩ := link_absolute_readBack.mp again
      cases succeeded.symm.trans same
      simp only [toText_withAddresses, true_or]
    | relocatable =>
      have names := fun object member => (textual object member).legible.toWritableNames
      rw [toText_link_relocatable_readBack names succeeded again]
      simp only [reduceCtorEq, false_or]

/-- Neither module exports a constant, so their texts link to the same text. -/
theorem toText_link_ofText_calling_called :
    ∃ read linked relinked,
      List.Forall₂ (fun object back => ofText object.toText = .ok back)
        [callingModule, calledModule] read ∧
      link [callingModule, calledModule] .relocatable = .ok linked ∧
      link read .relocatable = .ok relinked ∧ relinked.toText = linked.toText := by
  obtain ⟨read, backs, both, texts⟩ :=
    toText_link_ofText [callingModule, calledModule] .relocatable calling_called_assembled
  have linked : ∃ linked, link [callingModule, calledModule] .relocatable = .ok linked := ⟨_, rfl⟩
  obtain ⟨relinked, again⟩ := both.mpr linked
  obtain ⟨linked, succeeded⟩ := linked
  refine ⟨read, linked, relinked, backs, succeeded, again, ?_⟩
  exact (texts linked relinked succeeded again).mpr (Or.inr (by decide))

/-- A module that exports a constant and does not start at address 0. -/
def constantModule : Object where
  name := "A"
  start := 16
  entry := 16
  symbols := ⟨[⟨"A", 16, true, false⟩, ⟨"K", 5, true, true⟩]⟩
  source := some ["A START 16", " EXTDEF K", "K EQU 5", " END"]

theorem constantModule_assembled :
    ((assemble "A START 16\n EXTDEF K\nK EQU 5\n END").map Prod.snd).toOption =
      some constantModule := by
  decide +kernel

/-- **A constant that went through text is moved with its module.** -/
theorem toText_link_ofText_constant :
    (∃ source placement, assemble source = .ok (placement, constantModule)) ∧
    ∃ back linked relinked, ofText constantModule.toText = .ok back ∧
      link [constantModule] .relocatable = .ok linked ∧ link [back] .relocatable = .ok relinked ∧
      linked.toText = "H^A     ^000000^000000\nD^A^000000\nD^K^000005\nE^000000\n" ∧
      relinked.toText = "H^A     ^000000^000000\nD^A^000000\nD^K^FFFFFFF5\nE^000000\n" := by
  refine ⟨exists_of_assembled constantModule_assembled, constantModule.readBack, ?_⟩
  have read : (ofText constantModule.toText).toOption = some constantModule.readBack := by
    decide +kernel
  exact ⟨_, _, ok_of_toOption read, rfl, rfl, by decide +kernel, by decide +kernel⟩

end Object

end Sicxe
