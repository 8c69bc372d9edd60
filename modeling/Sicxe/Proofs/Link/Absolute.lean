import Sicxe.Proofs.Assembly.Module
import Sicxe.Proofs.Link.Exports
import Sicxe.Proofs.Link.Image

/-!
# Absolute linking

* `Object.linkAbsolute_eq_ok_iff`: when modules can be linked at their own starts, and what the
  program is.
* `Object.AbsoluteImage`: what the bytes of the program are. Every field holds what its record and
  the one exporter of its symbol ask for, the other bytes of a module are copied, and the bytes of
  no module are zero.
* `Object.absoluteImage_of_soundRecords` and `Object.linkAbsolute_image`: linked modules make such
  a program when their records are sound, and assembled modules always do.
-/

namespace Sicxe

namespace Object

open Relocation (FixedBy)

/-- A module exports a name at an address. -/
def Exports (object : Object) (name : String) (address : UInt32) : Prop :=
  ∃ symbol ∈ object.symbols.exported, symbol.name = name ∧ symbol.address = address

/-- An address belongs to a module at its own start. -/
def Contains (object : Object) (address : Nat) : Prop :=
  object.start.toNat ≤ address ∧ address < object.limit

/-- The byte of a module at an address. -/
def byteAt? (object : Object) (address : Nat) : Option UInt8 :=
  if object.start.toNat ≤ address then object.code[address - object.start.toNat]? else none

/-- Among some modules, the one at `index` and no other exports a name, at `address` only. -/
def SoleExport (modules : List Object) (index : Nat) (name : String) (address : UInt32) : Prop :=
  (∃ exporter, modules[index]? = some exporter ∧ exporter.Exports name address) ∧
    ∀ other object otherAddress, modules[other]? = some object →
      object.Exports name otherAddress → other = index ∧ otherAddress = address

/-- The field of a record of a module is resolved in the image of a program for a symbol at
`address`. -/
structure ResolvedField (linked object : Object) (record : Relocation) (address : Nat) : Prop where
  /-- An address field has the address added. -/
  absolute : record.relative = false →
    (record.shifted (object.start.toNat - linked.start.toNat)).field linked.code =
      record.field object.code + address
  /-- A displacement is the distance from the end of its instruction in 12 bits. -/
  relative : record.relative = true → ∃ distance : Int,
    distance = signExtend 12 (record.field object.code) + address -
      ((object.start.toNat : Int) + record.offset - 1 + 3) ∧
    -2048 ≤ distance ∧ distance ≤ 2047 ∧
    ((record.shifted (object.start.toNat - linked.start.toNat)).field linked.code : Int) =
      distance % 4096
  /-- The bits above the half bytes of the field stay. -/
  kept : (record.shifted (object.start.toNat - linked.start.toNat)).raw linked.code /
      record.capacity = record.raw object.code / record.capacity

/-- What a program that was linked at the starts of its modules is. -/
structure AbsoluteImage (modules : List Object) (linked : Object) : Prop where
  start : (modules.map fun object => object.start.toNat).min? = some linked.start.toNat
  limit : (modules.map Object.limit).max? = some linked.limit
  copied : ∀ object ∈ modules, ∀ address, object.Contains address →
    (∀ record ∈ object.relocations, ¬ record.Covers (address - object.start.toNat)) →
    linked.byteAt? address = object.byteAt? address
  blank : ∀ address, linked.Contains address → (∀ object ∈ modules, ¬ object.Contains address) →
    linked.byteAt? address = some 0
  resolved : ∀ object ∈ modules, ∀ record ∈ object.relocations, ∃ index address,
    SoleExport modules index record.symbol address ∧
      ResolvedField linked object record address.toNat
  closed : linked.relocations = [] ∧ linked.imports = []

/-! ### Success -/

/-- The modules at their own starts. -/
def atStarts (modules : List Object) : List PlacedObject :=
  modules.zip (Section.ofStarts modules)

/-- The bytes that sections span, all zero. -/
def blankImage (sections : List Section) : Array UInt8 :=
  Array.replicate ((Section.span sections).2 - (Section.span sections).1) 0

/-- **Modules are linked at their starts** when their sections are accepted, they export no name
twice, they export every name that one of them refers to, and they can be fixed up. -/
theorem linkAbsolute_eq_ok_iff {first linked : Object} {rest : List Object} :
    linkAbsolute first rest = .ok linked ↔
      ∃ globals code,
        Section.atStarts (first :: rest) = .ok (Section.ofStarts (first :: rest)) ∧
        PlacedObject.globals (atStarts (first :: rest)) = .ok globals ∧
        PlacedObject.checkResolved globals (atStarts (first :: rest)) = .ok () ∧
        (atStarts (first :: rest)).foldlM
          (placeInImage globals (Section.span (Section.ofStarts (first :: rest))).1)
          (blankImage (Section.ofStarts (first :: rest))) = .ok code ∧
        linked = {
          name := first.name
          start := UInt32.ofNat (Section.span (Section.ofStarts (first :: rest))).1
          entry := first.entry
          code
          symbols := globals
          fullyRelocated := true } := by
  unfold linkAbsolute
  simp only [bind_eq_ok_iff, pure_eq_ok_iff]
  constructor
  · rintro ⟨sections, accepted, globals, collected, _, checked, code, placed, rfl⟩
    obtain ⟨_, _, rfl⟩ := Section.atStarts_eq_ok_iff.mp accepted
    exact ⟨globals, code, accepted, collected, checked, placed, rfl⟩
  · rintro ⟨globals, code, accepted, collected, checked, placed, rfl⟩
    exact ⟨_, accepted, globals, collected, (), checked, code, placed, rfl⟩

/-! ### Exports at the own start -/

theorem rebased_self (symbol : Symbol) (origin : UInt32) :
    symbol.rebased origin origin = symbol := by
  unfold Symbol.rebased
  split
  · rfl
  · have same : origin + (symbol.address - origin) = symbol.address := by
      rw [UInt32.add_comm, UInt32.sub_add_cancel]
    rw [same]

theorem exports_at_start {placed : PlacedObject} (begins : placed.2.begin = placed.1.start.toNat) :
    placed.exports = placed.1.symbols.exported := by
  unfold PlacedObject.exports SymbolTable.rebased
  rw [begins, UInt32.ofNat_toNat]
  simp only [rebased_self, List.map_id']

/-- The common table of modules at their starts lists their exported symbols as they are. -/
theorem flatMap_exports_atStarts (modules : List Object) :
    (atStarts modules).flatMap PlacedObject.exports =
      modules.flatMap fun object => object.symbols.exported := by
  have lengths : modules.length ≤ (Section.ofStarts modules).length := by
    exact Nat.le_of_eq (Section.length_ofStarts modules).symm
  calc (atStarts modules).flatMap PlacedObject.exports
      = (atStarts modules).flatMap fun placed => placed.1.symbols.exported := by
        refine List.flatMap_congr fun placed member => exports_at_start ?_
        exact (Section.of_mem_zip_ofStarts member).1
    _ = ((atStarts modules).map Prod.fst).flatMap fun object => object.symbols.exported := by
        rw [List.flatMap_map]
    _ = modules.flatMap fun object => object.symbols.exported := by
        rw [atStarts, List.map_fst_zip lengths]

theorem apart_of_lt {modules : List Object} {first second : Nat} {left right : Object}
    (disjoint : modules.Pairwise
      (Function.onFun List.Disjoint fun object => object.symbols.exported.map Symbol.name))
    (ordered : first < second) (atFirst : modules[first]? = some left)
    (atSecond : modules[second]? = some right) {name : String}
    (inLeft : name ∈ left.symbols.exported.map Symbol.name) :
    name ∉ right.symbols.exported.map Symbol.name := by
  obtain ⟨firstBound, rfl⟩ := List.getElem?_eq_some_iff.mp atFirst
  obtain ⟨secondBound, rfl⟩ := List.getElem?_eq_some_iff.mp atSecond
  exact List.pairwise_iff_getElem.mp disjoint first second firstBound secondBound ordered inLeft

/-- **Where no name is exported twice, a name that is found has one exporter.** -/
theorem soleExport_of_nodup {modules : List Object} {name : String} {address : UInt32}
    (unique : ((modules.flatMap fun object => object.symbols.exported).map Symbol.name).Nodup)
    (found : (⟨modules.flatMap fun object => object.symbols.exported⟩ : SymbolTable).address? name =
      some address) : ∃ index, SoleExport modules index name address := by
  obtain ⟨symbol, member, isName, isAddress⟩ := (SymbolTable.address?_eq_some_iff unique).mp found
  obtain ⟨exporter, inModules, exported⟩ := List.mem_flatMap.mp member
  obtain ⟨index, atIndex⟩ := List.mem_iff_getElem?.mp inModules
  refine ⟨index, ⟨exporter, atIndex, symbol, exported, isName, isAddress⟩, ?_⟩
  rintro other object _ atOther ⟨otherSymbol, otherExported, otherName, rfl⟩
  have inOther : otherSymbol ∈ modules.flatMap fun object => object.symbols.exported :=
    List.mem_flatMap.mpr ⟨object, List.mem_of_getElem? atOther, otherExported⟩
  have sameSymbol : otherSymbol = symbol :=
    List.inj_on_of_nodup_map unique inOther member (otherName.trans isName.symm)
  refine ⟨?_, by rw [sameSymbol, isAddress]⟩
  rw [List.map_flatMap, List.nodup_flatMap] at unique
  have inFirst : name ∈ exporter.symbols.exported.map Symbol.name :=
    List.mem_map.mpr ⟨symbol, exported, isName⟩
  have inSecond : name ∈ object.symbols.exported.map Symbol.name :=
    List.mem_map.mpr ⟨otherSymbol, otherExported, otherName⟩
  rcases Nat.lt_trichotomy other index with before | same | behind
  · exact absurd inFirst (apart_of_lt unique.2 before atOther atIndex inSecond)
  · exact same
  · exact absurd inSecond (apart_of_lt unique.2 behind atIndex atOther inFirst)

/-! ### The image -/

theorem mem_atStarts {modules : List Object} {object : Object} (member : object ∈ modules) :
    ∃ range, (object, range) ∈ atStarts modules := by
  obtain ⟨index, atIndex⟩ := List.mem_iff_getElem?.mp member
  have bound : index < (Section.ofStarts modules).length := by
    rw [Section.length_ofStarts]
    exact (List.getElem?_eq_some_iff.mp atIndex).1
  exact ⟨_, List.mem_of_getElem?
    (List.getElem?_zip_eq_some.mpr ⟨atIndex, List.getElem?_eq_getElem bound⟩)⟩

/-- Every name is resolved when each module's references are in the table. -/
theorem checkResolved_atStarts_iff (modules : List Object) (table : SymbolTable) :
    PlacedObject.checkResolved table (atStarts modules) = .ok () ↔
      ∀ object ∈ modules, ∀ name ∈ object.imports ++ object.relocations.map Relocation.symbol,
        table.contains name = true := by
  rw [PlacedObject.checkResolved_eq_ok_iff]
  constructor
  · intro resolved object member
    obtain ⟨range, placed⟩ := mem_atStarts member
    exact resolved _ placed
  · intro resolved placed member
    exact resolved _ (List.of_mem_zip member).1

theorem ofStarts_ne_nil {modules : List Object} (nonempty : modules ≠ []) :
    Section.ofStarts modules ≠ [] := by
  intro empty
  have length := Section.length_ofStarts modules
  rw [empty] at length
  exact nonempty (List.eq_nil_of_length_eq_zero length.symm)

/-- The span of modules at their starts begins with a module. -/
theorem span_start_lt (first : Object) (rest : List Object) :
    (Section.span (Section.ofStarts (first :: rest))).1 < 0x100000000 := by
  have nonempty : first :: rest ≠ [] := List.cons_ne_nil _ _
  have least := List.min?_mem (Section.min?_span (ofStarts_ne_nil nonempty))
  rw [Section.map_begin_ofStarts] at least
  obtain ⟨object, _, same⟩ := List.mem_map.mp least
  rw [← same]
  exact object.start.toNat_lt

theorem toNat_span_start (first : Object) (rest : List Object) :
    (UInt32.ofNat (Section.span (Section.ofStarts (first :: rest))).1).toNat =
      (Section.span (Section.ofStarts (first :: rest))).1 := by
  have bound := span_start_lt first rest
  rw [UInt32.toNat_ofNat']
  omega

/-- The sections at the starts lie in the span. -/
theorem inImage_of_mem_atStarts {modules : List Object} {placed : PlacedObject}
    (member : placed ∈ atStarts modules) :
    InImage (Section.span (Section.ofStarts modules)).1
      (blankImage (Section.ofStarts modules)).size placed := by
  have bounds := Section.span_bounds (List.of_mem_zip member).2
  obtain ⟨begins, limit⟩ := Section.of_mem_zip_ofStarts member
  refine ⟨bounds.1, by rw [limit, begins, Object.limit], ?_⟩
  have length : placed.1.start.toNat ≤ placed.1.limit := Nat.le_add_right _ _
  rw [blankImage, Array.size_replicate]
  omega

variable {globals : SymbolTable} {modules : List Object} {linked : Object}

/-- A program is the image of its modules at their starts. -/
structure LinkedAtStarts (modules : List Object) (linked : Object) : Prop where
  accepted : Section.atStarts modules = .ok (Section.ofStarts modules)
  symbols : PlacedObject.globals (atStarts modules) = .ok linked.symbols
  start : linked.start.toNat = (Section.span (Section.ofStarts modules)).1
  built : (atStarts modules).foldlM (placeInImage linked.symbols linked.start.toNat)
    (blankImage (Section.ofStarts modules)) = .ok linked.code
  closed : linked.relocations = [] ∧ linked.imports = []

/-- Absolute linking makes the image of the modules at their starts. -/
theorem linkedAtStarts (succeeded : link modules .absolute = .ok linked) :
    LinkedAtStarts modules linked := by
  cases modules with
  | nil => cases succeeded
  | cons first rest =>
    obtain ⟨globals, code, accepted, collected, _, built, isLinked⟩ :=
      linkAbsolute_eq_ok_iff.mp succeeded
    have start : linked.start.toNat = (Section.span (Section.ofStarts (first :: rest))).1 := by
      rw [isLinked]
      exact toNat_span_start first rest
    refine ⟨accepted, ?_, start, ?_, ?_⟩
    · rw [collected, isLinked]
    · rw [start, isLinked]
      exact built
    · rw [isLinked]
      exact ⟨rfl, rfl⟩

namespace LinkedAtStarts

/-- The section of a module lies in the image. -/
theorem inImage (program : LinkedAtStarts modules linked) {placed : PlacedObject}
    (member : placed ∈ atStarts modules) :
    InImage linked.start.toNat (blankImage (Section.ofStarts modules)).size placed :=
  program.start ▸ inImage_of_mem_atStarts member

/-- What the finished image holds. -/
theorem holds (program : LinkedAtStarts modules linked)
    (sound : ∀ object ∈ modules, object.SoundRecords) :
    linked.code.size = (blankImage (Section.ofStarts modules)).size ∧
      (∀ placed ∈ atStarts modules,
        HoldsFixed linked.symbols linked.start.toNat linked.code placed) ∧
      ∀ index, (∀ placed ∈ atStarts modules,
          ¬ placed.2.Contains (linked.start.toNat + index)) →
        linked.code[index]? = (blankImage (Section.ofStarts modules))[index]? := by
  refine image_holds_modules program.built (fun placed member => program.inImage member)
    (fun placed member => (sound _ (List.of_mem_zip member).1).inside) ?_
  have lengths : (Section.ofStarts modules).length ≤ modules.length :=
    Nat.le_of_eq (Section.length_ofStarts modules)
  rw [← List.pairwise_map (f := Prod.snd), atStarts, List.map_snd_zip lengths]
  exact Section.pairwise_disjoint_of_atStarts program.accepted

/-- **The image holds each of its modules**, fixed up for the start of the module. -/
theorem exists_fixed (program : LinkedAtStarts modules linked)
    (sound : ∀ object ∈ modules, object.SoundRecords) {object : Object}
    (member : object ∈ modules) :
    linked.start.toNat ≤ object.start.toNat ∧ ∃ fixed,
      FixedBy linked.symbols.address? object.start.toNat object.relocations object.code fixed ∧
      Bytes.Agree linked.code (object.start.toNat - linked.start.toNat) fixed
        object.code.size := by
  obtain ⟨range, placed⟩ := mem_atStarts member
  obtain ⟨begins, _⟩ := Section.of_mem_zip_ofStarts placed
  have fromStart := (program.inImage placed).begins
  obtain ⟨fixed, run, agree⟩ := (program.holds sound).2.1 _ placed
  dsimp only at begins fromStart run agree
  rw [begins] at fromStart run agree
  exact ⟨fromStart, fixed, run, agree⟩

end LinkedAtStarts

/-- The fields of a module are resolved where the image holds the fixed module. -/
theorem resolvedField_of_holdsFixed {linked object : Object} {range : Section}
    (sound : object.SoundRecords) (begins : range.begin = object.start.toNat)
    (holds : HoldsFixed globals linked.start.toNat linked.code (object, range))
    {record : Relocation} (member : record ∈ object.relocations) :
    ∃ address, globals.address? record.symbol = some address ∧
      ResolvedField linked object record address.toNat := by
  obtain ⟨fixed, run, agree⟩ := holds
  obtain ⟨address, value, found, resolved, raw⟩ :=
    run.resolved sound.fits sound.apart record member
  obtain ⟨inside, hasInstruction⟩ := sound.inside record member
  obtain ⟨isHigh, isLow⟩ := record.capacity_split (record.raw object.code / record.capacity)
    (Relocation.resolve_lt resolved)
  have imageRaw : (record.shifted (object.start.toNat - linked.start.toNat)).raw linked.code =
      record.raw object.code / record.capacity * record.capacity + value := by
    rw [← raw, ← begins]
    exact Relocation.raw_shifted agree inside
  have imageField : (record.shifted (object.start.toNat - linked.start.toNat)).field linked.code =
      value := by
    rw [Relocation.field, imageRaw]
    exact isLow
  refine ⟨address, found, ?_, ?_, ?_⟩
  · intro isAbsolute
    rw [imageField]
    exact ((Relocation.resolve_absolute_iff isAbsolute).mp resolved).2
  · intro isRelative
    have bits := sound.displacement record member isRelative
    have offset := hasInstruction isRelative
    obtain ⟨⟨least, greatest⟩, isValue⟩ := (Relocation.resolve_relative_iff isRelative).mp resolved
    have distance : record.distanceTo (record.field object.code) address.toNat range.begin =
        signExtend 12 (record.field object.code) + address.toNat -
          ((object.start.toNat : Int) + record.offset - 1 + 3) := by
      rw [Relocation.distanceTo_displacement bits offset, begins]
    have capacity : record.capacity = 4096 := by
      rw [Relocation.capacity, bits]
      rfl
    refine ⟨_, distance, least, greatest, ?_⟩
    have nonnegative := Int.emod_nonneg
      (record.distanceTo (record.field object.code) address.toNat range.begin)
      (show (4096 : Int) ≠ 0 by decide)
    rw [imageField, isValue]
    simp only [capacity]
    exact Int.toNat_of_nonneg nonnegative
  · rw [imageRaw, isHigh]

/-- A program whose bytes are a finished image of its modules. -/
theorem absoluteImage_of_holds (nonempty : modules ≠ [])
    (sound : ∀ object ∈ modules, object.SoundRecords)
    (begins : linked.start.toNat = (Section.span (Section.ofStarts modules)).1)
    (size : linked.code.size = (blankImage (Section.ofStarts modules)).size)
    (unique : ((modules.flatMap fun object => object.symbols.exported).map Symbol.name).Nodup)
    (holds : ∀ placed ∈ atStarts modules, HoldsFixed
      ⟨modules.flatMap fun object => object.symbols.exported⟩ linked.start.toNat linked.code placed)
    (blank : ∀ index, (∀ placed ∈ atStarts modules,
        ¬ placed.2.Contains (linked.start.toNat + index)) →
      linked.code[index]? = (blankImage (Section.ofStarts modules))[index]?)
    (closed : linked.relocations = [] ∧ linked.imports = []) : AbsoluteImage modules linked := by
  have sections := ofStarts_ne_nil nonempty
  have inSpan : ∀ {placed : PlacedObject}, placed ∈ atStarts modules →
      linked.start.toNat ≤ placed.2.begin ∧ placed.2.begin = placed.1.start.toNat ∧
        placed.2.limit = placed.1.limit := by
    intro placed member
    rw [begins]
    exact ⟨(inImage_of_mem_atStarts member).begins, Section.of_mem_zip_ofStarts member⟩
  have limit : linked.limit = (Section.span (Section.ofStarts modules)).2 := by
    obtain ⟨object, member⟩ := List.exists_mem_of_ne_nil modules nonempty
    obtain ⟨range, placed⟩ := mem_atStarts member
    have bounds := Section.span_bounds (List.of_mem_zip placed).2
    have ordered := Section.begin_le_limit_of_ofStarts range (List.of_mem_zip placed).2
    rw [Object.limit, Object.length, size, begins, blankImage, Array.size_replicate]
    omega
  refine ⟨?_, ?_, ?_, ?_, ?_, closed⟩
  · rw [← Section.map_begin_ofStarts, Section.min?_span sections, begins]
  · rw [← Section.map_limit_ofStarts, Section.max?_span sections, limit]
  · intro object member address inside free
    obtain ⟨range, placed⟩ := mem_atStarts member
    obtain ⟨fromStart, isBegin, _⟩ := inSpan placed
    obtain ⟨fixed, run, agree⟩ := holds _ placed
    have length : object.limit = object.start.toNat + object.code.size := rfl
    unfold Contains at inside
    dsimp only at fromStart isBegin agree
    have index : address - linked.start.toNat =
        range.begin - linked.start.toNat + (address - object.start.toNat) := by omega
    rw [byteAt?, byteAt?, if_pos (by omega), if_pos inside.1, index, agree _ (by omega),
      run.kept free]
  · intro address inside outside
    unfold Contains at inside
    have bound : address - linked.start.toNat < (blankImage (Section.ofStarts modules)).size := by
      have length : linked.limit = linked.start.toNat + linked.code.size := rfl
      omega
    rw [byteAt?, if_pos inside.1, blank, blankImage, Array.getElem?_replicate, if_pos]
    · rw [blankImage, Array.size_replicate] at bound
      exact bound
    · intro placed member contains
      obtain ⟨_, isBegin, isLimit⟩ := inSpan member
      rw [Nat.add_sub_cancel' inside.1] at contains
      refine outside _ (List.of_mem_zip member).1 ?_
      rw [Contains, ← isBegin, ← isLimit]
      exact contains
  · intro object member record isRecord
    obtain ⟨range, placed⟩ := mem_atStarts member
    obtain ⟨address, found, field⟩ := resolvedField_of_holdsFixed (sound object member)
      (inSpan placed).2.1 (holds _ placed) isRecord
    obtain ⟨index, sole⟩ := soleExport_of_nodup unique found
    exact ⟨index, address, sole, field⟩

/-- **Linked modules with sound records make a program in which every field is resolved and every
other byte is copied or zero.** -/
theorem absoluteImage_of_soundRecords
    (sound : ∀ object ∈ modules, object.SoundRecords)
    (succeeded : link modules .absolute = .ok linked) : AbsoluteImage modules linked := by
  have nonempty : modules ≠ [] := by
    rintro rfl
    cases succeeded
  have program := linkedAtStarts succeeded
  obtain ⟨unique, isSymbols⟩ := PlacedObject.globals_eq_ok_iff.mp program.symbols
  obtain ⟨size, holds, blank⟩ := program.holds sound
  rw [flatMap_exports_atStarts] at unique isSymbols
  rw [isSymbols] at holds
  exact absoluteImage_of_holds nonempty sound program.start size unique holds blank program.closed

/-- **Assembled modules are linked into a program in which every field is resolved and nothing else
changes.** -/
theorem linkAbsolute_image {modules : List Object} {linked : Object}
    (assembled : ∀ object ∈ modules, ∃ source placement, assemble source = .ok (placement, object))
    (succeeded : link modules .absolute = .ok linked) : AbsoluteImage modules linked := by
  refine absoluteImage_of_soundRecords (fun object member => ?_) succeeded
  obtain ⟨source, placement, made⟩ := assembled object member
  exact assemble_soundRecords made

/-- The module of a program that refers to an import twice and to itself once. -/
def callingModule : Object where
  name := "A"
  code := #[3, 32, 0, 3, 16, 0, 0, 0, 0, 0]
  symbols := ⟨[⟨"A", 0, true, false⟩]⟩
  imports := ["B"]
  relocations := [.displacement 0 "B", .address20 3 "B", .word 7 "A"]
  source := some ["A START 0", " EXTREF B", " LDA B", " +LDA B", " WORD A", " END"]

/-- The module that exports the import. -/
def calledModule : Object where
  name := "B"
  start := 16
  entry := 16
  code := #[0, 0, 0]
  symbols := ⟨[⟨"B", 16, true, false⟩]⟩
  relocations := [.word 0 "B"]
  source := some ["B START 16", " WORD B", " END"]

theorem exists_of_assembled {source : String} {object : Object}
    (made : ((assemble source).map Prod.snd).toOption = some object) :
    ∃ source placement, assemble source = .ok (placement, object) := by
  obtain ⟨⟨placement, _⟩, assembled, rfl⟩ := exists_ok_of_map made
  exact ⟨source, placement, assembled⟩

theorem callingModule_assembled :
    ((assemble "A START 0\n EXTREF B\n LDA B\n +LDA B\n WORD A\n END").map Prod.snd).toOption =
      some callingModule := by
  decide +kernel

theorem calledModule_assembled :
    ((assemble "B START 16\n WORD B\n END").map Prod.snd).toOption = some calledModule := by
  decide +kernel

theorem calling_called_assembled : ∀ object ∈ [callingModule, calledModule], ∃ source placement,
    assemble source = .ok (placement, object) := by
  intro object member
  rcases List.mem_cons.mp member with rfl | member
  · exact exists_of_assembled callingModule_assembled
  · rw [List.mem_singleton.mp member]
    exact exists_of_assembled calledModule_assembled

/-- The two modules make a program whose fields hold the addresses 0 and 16. -/
theorem linkAbsolute_calling_called :
    ∃ linked, link [callingModule, calledModule] .absolute = .ok linked ∧
      linked.code = #[3, 32, 13, 3, 16, 0, 16, 0, 0, 0, 0, 0, 0, 0, 0, 0, 0, 0, 16] := by
  refine ⟨_, linkAbsolute_eq_ok_iff.mpr ⟨⟨[⟨"A", 0, true, false⟩, ⟨"B", 16, true, false⟩]⟩, _,
    Section.atStarts_of_ascending (by decide) ?_, ?_, ?_, ?_, rfl⟩, rfl⟩
  · simp [Section.Ascending, Section.ofStarts, callingModule, calledModule, Object.limit,
      Object.length]
  · decide +kernel
  · decide +kernel
  · decide +kernel

theorem linkAbsolute_image_calling_called :
    ∃ linked, link [callingModule, calledModule] .absolute = .ok linked ∧
      AbsoluteImage [callingModule, calledModule] linked := by
  obtain ⟨linked, succeeded, _⟩ := linkAbsolute_calling_called
  refine ⟨linked, succeeded, linkAbsolute_image (fun object member => ?_) succeeded⟩
  rcases List.mem_cons.mp member with rfl | member
  · exact exists_of_assembled callingModule_assembled
  · rw [List.mem_singleton.mp member]
    exact exists_of_assembled calledModule_assembled

end Object

end Sicxe
