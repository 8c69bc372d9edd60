import Sicxe.Proofs.Assembly.Names
import Sicxe.Proofs.Link.Absolute
import Sicxe.Proofs.Object.Reading

/-!
# Object text there and back

* `Object.Textual`: a module whose names are identifiers, which lies inside the address space and
  whose records have the shapes of an assembler.
* `Object.assemble_textual`: every assembled module is textual.
* `Object.ofText_toText_recovers`: the text of a textual module is read, and all that the linker
  and the loader need comes back.
-/

namespace Sicxe

/-! ### Identifiers in fields -/

theorem isIdentifier_chars {text : List Char} (identifier : isIdentifier text = true) :
    ∀ c ∈ text, (c.isAlphanum || c == '_') = true := by
  cases text with
  | nil => cases identifier
  | cons first rest =>
    simp only [isIdentifier, Bool.and_eq_true, List.all_eq_true] at identifier
    intro c member
    rcases List.mem_cons.mp member with rfl | member
    · have letter := identifier.1
      simp only [Char.isAlphanum, Bool.or_eq_true] at letter ⊢
      rcases letter with isAlpha | underscore
      · exact Or.inl (Or.inl isAlpha)
      · exact Or.inr underscore
    · exact identifier.2 c member

/-- An ASCII letter or digit lies between `0` and `z` and is not `^`. -/
theorem isAlphanum_bounds {c : Char} (alphanum : c.isAlphanum = true) :
    48 ≤ c.toNat ∧ c.toNat ≤ 122 ∧ c ≠ '^' := by
  have ranges : c.isAlphanum = (decide (65 ≤ c.val ∧ c.val ≤ 90) ||
      (decide (97 ≤ c.val) && decide (c.val ≤ 122)) ||
        (decide (48 ≤ c.val) && decide (c.val ≤ 57))) := rfl
  simp only [ranges, Bool.or_eq_true, Bool.and_eq_true, decide_eq_true_eq,
    UInt32.le_iff_toNat_le] at alphanum
  have inRanges : ((65 ≤ c.toNat ∧ c.toNat ≤ 90) ∨ (97 ≤ c.toNat ∧ c.toNat ≤ 122)) ∨
      (48 ≤ c.toNat ∧ c.toNat ≤ 57) := alphanum
  refine ⟨by omega, by omega, ?_⟩
  rintro rfl
  revert inRanges
  decide

/-- **An identifier holds no mark and no blank.** -/
theorem isIdentifier_plain {text : List Char} (identifier : isIdentifier text = true) :
    ∀ c ∈ text, c ≠ '^' ∧ c ≠ '\n' ∧ Text.isBlank c = false := by
  intro c member
  have char := isIdentifier_chars identifier c member
  rw [Bool.or_eq_true] at char
  rcases char with alphanum | underscore
  · obtain ⟨least, greatest, mark⟩ := isAlphanum_bounds alphanum
    have visible : Text.isBlank c = false := by
      simp only [Text.isBlank, Bool.or_eq_false_iff, Bool.and_eq_false_iff, decide_eq_false_iff_not,
        beq_eq_false_iff_ne]
      omega
    refine ⟨mark, ?_, visible⟩
    rintro rfl
    cases visible
  · rw [eq_of_beq underscore]
    decide

theorem IsName.isField {name : String} (isName : IsName name) : Object.IsField name.toList :=
  ⟨fun member => (isIdentifier_plain isName _ member).1 rfl,
    fun member => (isIdentifier_plain isName _ member).2.1 rfl⟩

theorem IsName.closed {name : String} (isName : IsName name) : Text.Closed name.toList :=
  .of_forall fun c member => (isIdentifier_plain isName c member).2.2

theorem IsName.trimmed {name : String} (isName : IsName name) :
    Text.trim name.toList = name.toList :=
  Text.trim_eq_self fun c member => (isIdentifier_plain isName c member).2.2

/-! ### Textual modules -/

/-- The records that an assembler makes. -/
inductive Relocation.Shape : Relocation → Prop
  | address20 (instruction : Nat) (symbol : String) : Shape (.address20 instruction symbol)
  | displacement (instruction : Nat) (symbol : String) : Shape (.displacement instruction symbol)
  | word (offset : Nat) (symbol : String) : Shape (.word offset symbol)

/-- The half bytes of such a record tell its length and kind. -/
theorem Relocation.Shape.regular {record : Relocation} (shape : record.Shape) : record.Regular := by
  cases shape with
  | address20 => constructor <;> simp [Relocation.address20]
  | displacement => constructor <;> simp [Relocation.displacement]
  | word => constructor <;> simp [Relocation.word]

theorem LineRecord.shape {offset length : Nat} {record : Relocation}
    (ofLine : LineRecord offset record length) : record.Shape := by
  cases ofLine with
  | address20 symbol => exact .address20 offset symbol
  | displacement symbol => exact .displacement offset symbol
  | word symbol => exact .word offset symbol

namespace Object

variable {object : Object}

/-- A module that text can hold: its names are identifiers, each table holds a name once, it lies
inside the address space, and its records have the shapes of an assembler. -/
structure Textual (object : Object) : Prop where
  name : object.name = "" ∨ IsName object.name
  symbols : ∀ name ∈ object.symbols.names, IsName name
  distinctSymbols : object.symbols.names.Nodup
  imports : ∀ name ∈ object.imports, IsName name
  distinctImports : object.imports.Nodup
  limit : object.start.toNat + object.code.size ≤ 0x100000
  relocations : ∀ record ∈ object.relocations, IsName record.symbol ∧ record.Shape ∧
    object.start.toNat + record.offset < 0x100000000
  movable : object.fullyRelocated = true → object.relocations = []

/-- **The text of a textual module can be read.** -/
theorem Textual.legible (textual : object.Textual) : object.Legible := by
  have exported : ∀ symbol ∈ object.symbols.exported, IsName symbol.name := fun symbol member =>
    textual.symbols _ (List.mem_map_of_mem (List.mem_of_mem_filter member))
  constructor
  · constructor
    · rcases textual.name with empty | isName
      · rw [empty]
        exact ⟨nofun, nofun⟩
      · exact isName.isField
    · exact fun symbol member => (exported symbol member).isField
    · exact fun name member => ⟨(textual.imports name member).isField,
        (textual.imports name member).closed⟩
    · exact fun record member => ⟨(textual.relocations record member).1.isField,
        (textual.relocations record member).1.closed⟩
  · rcases textual.name with empty | isName
    · rw [empty]
      rfl
    · exact isName.trimmed
  · exact textual.distinctSymbols.sublist (List.filter_sublist.map _)
  · exact textual.distinctImports
  · exact fun record member => (textual.relocations record member).2.1.regular
  · exact fun record member => (textual.relocations record member).2.2
  · exact textual.limit
  · exact textual.movable

/-- **An assembled module is textual.** -/
theorem assemble_textual {source : String} {placement : Placement}
    (assembled : assemble source = .ok (placement, object)) : object.Textual := by
  obtain ⟨placed, emitted, made⟩ := assemble_assembled assembled
  obtain ⟨program, symbols, distinctSymbols, imports, distinctImports⟩ :=
    Placement.wellNamed placed
  have limit : object.start.toNat + object.code.size ≤ 0x100000 := by
    have bound : placement.start + placement.length ≤ 0x100000 := (Placement.limit_le placed).2
    rw [made.start, made.length, UInt32.toNat_ofNat']
    omega
  refine ⟨made.name ▸ program, made.symbols ▸ symbols, made.symbols ▸ distinctSymbols,
    made.imports ▸ imports, made.imports ▸ distinctImports, limit, fun record member => ?_, ?_⟩
  · have inside := (made.soundRecords.inside record member).1.2.2
    refine ⟨?_, ?_, by omega⟩
    · rcases made.known member with isImport | ⟨isProgram, nonempty⟩
      · exact imports _ isImport
      · rw [isProgram]
        exact program.resolve_left nonempty
    · rw [made.relocations] at member
      obtain ⟨line, inEmitted, isRecord⟩ := List.mem_filterMap.mp member
      exact (made.record_shape inEmitted isRecord).shape
  · intro fixed
    rw [made.movable] at fixed
    cases fixed

/-- What comes back from the text of a module. -/
structure Recovered (object read : Object) : Prop where
  name : read.name = object.name
  start : read.start = object.start
  entry : read.entry = object.entry
  code : read.code = object.code
  imports : read.imports = object.imports
  relocations : read.relocations = object.relocations
  /-- Only the exported symbols come back, in their order. -/
  symbols : read.symbols.symbols.map (fun symbol => (symbol.name, symbol.address)) =
    object.symbols.exported.map fun symbol => (symbol.name, symbol.address)
  exported : ∀ symbol ∈ read.symbols.symbols, symbol.exported = true
  fullyRelocated : read.fullyRelocated = true ↔ object.imports = [] ∧ object.relocations = []

theorem recovered_readBack (object : Object) : Recovered object object.readBack := by
  refine ⟨rfl, rfl, rfl, rfl, rfl, rfl, ?_, fun symbol member => ?_, ?_⟩
  · simp only [readBack, List.map_map]
    rfl
  · obtain ⟨original, inExported, rfl⟩ := List.mem_map.mp member
    exact (List.mem_filter.mp inExported).2
  · simp only [readBack, Bool.and_eq_true, List.isEmpty_iff, and_comm]

/-- **Writing a textual module and reading it back recovers the module**, and every assembled module
is textual. -/
theorem ofText_toText_recovers :
    (∀ object : Object, object.Textual →
      ∃ read, ofText object.toText = .ok read ∧ Recovered object read) ∧
    ∀ source placement object, assemble source = .ok (placement, object) → object.Textual :=
  ⟨fun object textual =>
      ⟨object.readBack, ofText_toText textual.legible, recovered_readBack object⟩,
    fun _ _ _ assembled => assemble_textual assembled⟩

theorem ofText_toText_recovers_calling :
    callingModule.Textual ∧
      ∃ read, ofText callingModule.toText = .ok read ∧ Recovered callingModule read := by
  obtain ⟨source, placement, assembled⟩ := exists_of_assembled callingModule_assembled
  have textual := ofText_toText_recovers.2 source placement callingModule assembled
  exact ⟨textual, ofText_toText_recovers.1 callingModule textual⟩

end Object

end Sicxe
