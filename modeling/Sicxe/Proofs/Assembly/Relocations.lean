import Sicxe.Proofs.Assembly.LiteralWord
import Sicxe.Proofs.Assembly.Names

/-!
# The records of an assembled module

`assemble_relocations` puts together what holds of the records of every module that is assembled.

* `Placement.Assembled.field_inLine`: the field of a record lies in the bytes of one line of the
  source.
* `Placement.Assembled.symbol_known`: a record refers to an import or to the exported name of the
  program.
* `Relocation.applyAll_inside`: no fix-up is refused because its field lies outside the code.
-/

namespace Sicxe

namespace Relocation

/-- The code with some fields resolved one after another, each for the address of its symbol and
code placed at some origin. -/
def applyAll (code : Array UInt8) (fixups : List (Relocation × Nat × Nat)) :
    Except ObjectError (Array UInt8) :=
  fixups.foldlM (fun code (record, address, origin) => record.apply code address origin) code

variable {record : Relocation} {code : Array UInt8} {fixups : List (Relocation × Nat × Nat)}
variable {offset length size : Nat}

/-- A field inside the code is not refused for lying outside. -/
theorem apply_inside (inside : record.inside code.size) (address origin : Nat) :
    record.apply code address origin ≠ .error (.fieldOutOfRange offset length size) := by
  rw [apply_of_inside inside]
  unfold resolve
  split
  · dsimp only
    split <;> simp [Except.map]
  · dsimp only
    split <;> simp [Except.map]

/-- **Fields inside the code are not refused for lying outside**, in whatever order they are
resolved. -/
theorem applyAll_inside (inside : ∀ fixup ∈ fixups, fixup.1.inside code.size) :
    applyAll code fixups ≠ .error (.fieldOutOfRange offset length size) := by
  induction fixups generalizing code with
  | nil => exact fun impossible => by cases impossible
  | cons fixup rest ih =>
    obtain ⟨record, address, origin⟩ := fixup
    intro refused
    unfold applyAll at refused
    rw [List.foldlM_cons] at refused
    cases applied : record.apply code address origin with
    | error error =>
      simp only [applied] at refused
      cases refused
      exact apply_inside (inside _ List.mem_cons_self) address origin applied
    | ok next =>
      simp only [applied] at refused
      refine ih (fun other member => ?_) refused
      rw [size_apply applied]
      exact inside other (List.mem_cons_of_mem _ member)

end Relocation

namespace Placement

variable {source : String} {placement : Placement} {object : Object} {record : Relocation}
variable {emitted : List EmittedLine}

/-- The field of a record lies in the bytes of a line of the source, which the code holds at the
offset of the line. -/
def FieldInLine (source : String) (placement : Placement) (object : Object)
    (record : Relocation) : Prop :=
  ∃ before line after content inForce encoded,
    placement.lines = before ++ line :: after ∧
      (content, line.line) ∈ (Text.stringLines source).zipIdx 1 ∧
      before.foldlM placement.nextBase none = .ok inForce ∧
      placement.encodeLine inForce line = .ok encoded ∧ encoded.record = some record ∧
      Bytes.slice object.code (placement.offset line) encoded.bytes.length = encoded.bytes ∧
      placement.offset line ≤ record.offset ∧
      record.offset + record.length ≤ placement.offset line + encoded.bytes.length

namespace Assembled

/-- **The field of a record lies in the bytes of one line of the source.** -/
theorem field_inLine (placed : ofSource source = .ok placement)
    (assembled : placement.Assembled object emitted) (member : record ∈ object.relocations) :
    FieldInLine source placement object record := by
  rw [assembled.relocations] at member
  obtain ⟨⟨line, encoded⟩, inEmitted, isRecord⟩ := List.mem_filterMap.mp member
  obtain ⟨before, after, rfl⟩ := List.append_of_mem inEmitted
  obtain ⟨inForce, reached, encodes⟩ := assembled.emits.encodes_at
  have lines : placement.lines = before.map EmittedLine.placed ++
      line :: after.map EmittedLine.placed := by
    rw [← assembled.lines, List.map_append, List.map_cons]
  have inLines : line ∈ placement.lines := by
    rw [lines]
    exact List.mem_append_right _ List.mem_cons_self
  have inside := (assembled.record_shape inEmitted isRecord).field_inside
  have slice := assembled.slice_at
  cases origin_of_mem placed inLines with
  | @statement content _ _ _ _ inSource _ =>
    exact ⟨_, _, _, content, inForce, encoded, lines, inSource, reached, encodes, isRecord, slice,
      inside.1, inside.2.1⟩
  | literal address isLiteral =>
    cases LiteralPool.encodeLine_dataLine isLiteral encodes
    cases isRecord

/-- **A record refers to an import or to the exported name of the program.** -/
theorem symbol_known (placed : ofSource source = .ok placement)
    (assembled : placement.Assembled object emitted) (member : record ∈ object.relocations) :
    record.symbol ∈ object.imports ∨ record.symbol = object.name ∧
      object.symbols.get? object.name = some ⟨object.name, object.start, true, false⟩ := by
  rw [assembled.imports, assembled.name, assembled.symbols, assembled.start]
  rcases assembled.known member with isImport | ⟨isName, nonempty⟩
  · exact Or.inl isImport
  · exact Or.inr ⟨isName, start_symbol placed nonempty⟩

end Assembled

end Placement

/-- **The records of an assembled module are well formed.** Their fields lie in the code and in the
bytes of one line of the source each, and they come one behind the other. Their symbols are imports
of the module or its name, which the module then exports at its start. Hence no fix-up of the module
is refused because its field lies outside the code. -/
theorem assemble_relocations {source : String} {placement : Placement} {object : Object}
    (assembled : assemble source = .ok (placement, object)) :
    (∀ record ∈ object.relocations, 1 ≤ record.length ∧
        record.offset + record.length ≤ object.code.size ∧
        Placement.FieldInLine source placement object record) ∧
      object.relocations.Pairwise (fun first second =>
        first.offset < second.offset ∧ first.offset + first.length ≤ second.offset) ∧
      (∀ record ∈ object.relocations, record.symbol ∈ object.imports ∨
        record.symbol = object.name ∧
          object.symbols.get? object.name = some ⟨object.name, object.start, true, false⟩) ∧
      ∀ fixups, (∀ fixup ∈ fixups, fixup.1 ∈ object.relocations) → ∀ offset length size,
        Relocation.applyAll object.code fixups ≠ .error (.fieldOutOfRange offset length size) := by
  obtain ⟨placed, emitted, made⟩ := assemble_assembled assembled
  have inside : ∀ record ∈ object.relocations, record.inside object.code.size :=
    fun record member => (made.soundRecords.inside record member).1
  refine ⟨?_, ?_, ?_, ?_⟩
  · intro record member
    obtain ⟨least, _, inCode⟩ := inside record member
    exact ⟨least, inCode, made.field_inLine placed member⟩
  · refine made.fields_pairwise.imp_of_mem fun firstIn _ behind => ?_
    have least := (inside _ firstIn).1
    exact ⟨by omega, behind⟩
  · intro record member
    exact made.symbol_known placed member
  · intro fixups own offset length size
    exact Relocation.applyAll_inside fun fixup member => inside fixup.1 (own fixup member)

/-- Two references to an import and a word with the name of the program have records. -/
theorem assemble_relocations_calling : ∃ placement object,
    assemble "A START 0\n EXTREF B\n LDA B\n +LDA B\n WORD A\n END" = .ok (placement, object) ∧
      object.relocations = [.displacement 0 "B", .address20 3 "B", .word 7 "A"] ∧
      (∀ record ∈ object.relocations, Placement.FieldInLine
        "A START 0\n EXTREF B\n LDA B\n +LDA B\n WORD A\n END" placement object record) ∧
      ∀ address origin offset length size, Relocation.applyAll object.code
        [(.word 7 "A", address, origin), (.displacement 0 "B", address, origin)] ≠
          .error (.fieldOutOfRange offset length size) := by
  obtain ⟨⟨placement, object⟩, assembled, records⟩ := exists_ok_of_map
    (show ((assemble "A START 0\n EXTREF B\n LDA B\n +LDA B\n WORD A\n END").map
        fun result => result.2.relocations).toOption =
          some [.displacement 0 "B", .address20 3 "B", .word 7 "A"] by
      decide +kernel)
  have records : object.relocations = [.displacement 0 "B", .address20 3 "B", .word 7 "A"] :=
    records
  obtain ⟨fields, _, _, applied⟩ := assemble_relocations assembled
  refine ⟨placement, object, assembled, records, fun record member => (fields record member).2.2,
    fun address origin => applied _ ?_⟩
  simp [records]

end Sicxe
