import Sicxe.Object.Text.Parser
import Sicxe.Proofs.Text.Hex

/-!
# The records of a written module

* `recordsOfText_unlines`: the records of a text are those that were written, one on each line.
* `Object.WritableNames`: names that fit in the fields of records, and `WritableNames.written` for
  the records of a module that has only such names.
* `Object.records_eq_of_toText_eq`: modules with the same text have the same records.
-/

namespace Sicxe.Object

open Text (Closed)

/-- A text that a field of a record can hold. -/
def IsField (text : List Char) : Prop :=
  '^' ∉ text ∧ '\n' ∉ text

theorem IsField.tail {mark : Char} {text : List Char} (isField : IsField (mark :: text)) :
    IsField text :=
  ⟨fun member => isField.1 (List.mem_cons_of_mem _ member),
    fun member => isField.2 (List.mem_cons_of_mem _ member)⟩

theorem isField_padded (width number : Nat) : IsField (Hex.padded width number) :=
  ⟨fun member => (Hex.isDigit_of_mem_padded member).plain.1 rfl,
    fun member => (Hex.isDigit_of_mem_padded member).plain.2.1 rfl⟩

theorem closed_padded (width number : Nat) : Closed (Hex.padded width number) :=
  .of_forall fun _ member => (Hex.isDigit_of_mem_padded member).plain.2.2.2.1

namespace Record

/-- A record that can be read back from its line. -/
structure Written (record : Record) : Prop where
  several : 2 ≤ record.length
  fields : ∀ field ∈ record, IsField field
  closed : ∀ last, record.getLast? = some last → Closed last

theorem line_cons (first second : List Char) (rest : Record) :
    line (first :: second :: rest) = first ++ '^' :: line (second :: rest) := by
  rw [line, List.intercalate_cons_cons, List.append_assoc]
  rfl

theorem mem_line {record : Record} {c : Char} (member : c ∈ record.line) :
    c = '^' ∨ ∃ field ∈ record, c ∈ field := by
  induction record with
  | nil => cases member
  | cons first rest ih =>
    cases rest with
    | nil =>
      rw [line, List.intercalate_singleton] at member
      exact Or.inr ⟨first, List.mem_cons_self, member⟩
    | cons second rest =>
      rw [line_cons, List.mem_append, List.mem_cons] at member
      rcases member with here | mark | later
      · exact Or.inr ⟨first, List.mem_cons_self, here⟩
      · exact Or.inl mark
      · rcases ih later with mark | ⟨field, inRest, inField⟩
        · exact Or.inl mark
        · exact Or.inr ⟨field, List.mem_cons_of_mem _ inRest, inField⟩

/-- A line ends like the last field of its record. -/
theorem closed_line {record : Record} (closed : ∀ last, record.getLast? = some last → Closed last) :
    Closed record.line := by
  induction record with
  | nil => exact fun _ impossible => by cases impossible
  | cons first rest ih =>
    cases rest with
    | nil =>
      rw [line, List.intercalate_singleton]
      exact closed first rfl
    | cons second rest =>
      rw [line_cons]
      refine Closed.append (List.cons_ne_nil _ _)
        (Closed.cons (by decide) (ih fun last isLast => ?_))
      exact closed last (by rwa [List.getLast?_cons_cons])

namespace Written

variable {record : Record}

theorem ne_nil (written : record.Written) : record ≠ [] := by
  rintro rfl
  exact absurd written.several (by decide)

theorem line_ne_nil (written : record.Written) : record.line ≠ [] := by
  match record, written.several with
  | first :: second :: rest, _ =>
    rw [line_cons]
    exact List.append_ne_nil_of_right_ne_nil _ (List.cons_ne_nil _ _)

/-- **The line of a record gives the record back.** -/
theorem ofLine_line (written : record.Written) : ofLine record.line = record :=
  List.splitOn_intercalate '^' (fun field member => (written.fields field member).1) written.ne_nil

theorem single (written : record.Written) : '\n' ∉ record.line := by
  intro member
  rcases mem_line member with impossible | ⟨field, inRecord, inField⟩
  · exact absurd impossible (by decide)
  · exact (written.fields field inRecord).2 inField

end Written

end Record

/-- Records with the numbers of their lines, from `first` on. -/
def numbered (first : Nat) (records : List Record) : List (Nat × Record) :=
  (records.zipIdx first).map Prod.swap

/-- **The records of a text are those that were written.** -/
theorem recordsOfText_unlines {records : List Record}
    (written : ∀ record ∈ records, record.Written) :
    recordsOfText (Text.unlines (records.map Record.line)) = numbered 1 records := by
  have lines : Text.lines (Text.unlines (records.map Record.line)) = records.map Record.line := by
    refine Text.lines_unlines ?_ ?_
    · intro line member
      obtain ⟨record, inRecords, rfl⟩ := List.mem_map.mp member
      exact (written record inRecords).single
    · intro line member
      obtain ⟨record, inRecords, rfl⟩ := List.mem_map.mp member
      exact Record.closed_line (written record inRecords).closed
  simp only [recordsOfText, lines, numbered, List.zipIdx_map, List.filterMap_map]
  rw [← List.filterMap_eq_map]
  refine List.filterMap_congr fun pair member => ?_
  obtain ⟨record, number⟩ := pair
  have isWritten := written record (List.fst_mem_of_mem_zipIdx member)
  have nonempty : record.line.isEmpty = false := by simpa using isWritten.line_ne_nil
  simp only [Function.comp, Prod.map, Text.trimRight_eq_self (Record.closed_line isWritten.closed),
    nonempty, Bool.false_eq_true, if_false, isWritten.ofLine_line, id, Prod.swap_prod_mk]

/-! ### The records of a module -/

/-- The names of a module fit in the fields of its records. -/
structure WritableNames (object : Object) : Prop where
  name : IsField object.name.toList
  symbols : ∀ symbol ∈ object.symbols.exported, IsField symbol.name.toList
  imports : ∀ name ∈ object.imports, IsField name.toList ∧ Closed name.toList
  relocations : ∀ record ∈ object.relocations,
    IsField record.symbol.toList ∧ Closed record.symbol.toList

variable {object other : Object}

/-- A record of a mark and other fields is written when its last field does not end in a blank. -/
theorem written_of_fields {kind : Char} {fields : Record} (mark : kind ≠ '^') (single : kind ≠ '\n')
    (nonempty : fields ≠ []) (isField : ∀ field ∈ fields, IsField field)
    (closed : ∀ last, fields.getLast? = some last → Closed last) :
    Record.Written ([kind] :: fields) := by
  refine ⟨?_, fun field member => ?_, fun last isLast => ?_⟩
  · have := List.length_pos_of_ne_nil nonempty
    rw [List.length_cons]
    omega
  · rcases List.mem_cons.mp member with rfl | member
    · simp only [IsField, List.mem_singleton]
      exact ⟨Ne.symm mark, Ne.symm single⟩
    · exact isField field member
  · refine closed last ?_
    rwa [List.getLast?_cons_of_ne_nil nonempty] at isLast

theorem written_headerRecord (name : IsField object.name.toList) : object.headerRecord.Written := by
  have spaces : IsField (object.name.toList.rightpad 6 ' ') := by
    simp only [IsField, List.rightpad, List.mem_append, List.mem_replicate, not_or]
    exact ⟨⟨name.1, fun impossible => absurd impossible.2 (by decide)⟩,
      name.2, fun impossible => absurd impossible.2 (by decide)⟩
  refine written_of_fields (by decide) (by decide) (List.cons_ne_nil _ _) ?_ ?_
  · simp only [List.forall_mem_cons]
    exact ⟨spaces, isField_padded _ _, isField_padded _ _, nofun⟩
  · rintro _ ⟨⟩
    exact closed_padded _ _

theorem written_symbolRecord {symbol : Symbol} (name : IsField symbol.name.toList) :
    (symbolRecord symbol).Written := by
  refine written_of_fields (by decide) (by decide) (List.cons_ne_nil _ _) ?_ ?_
  · simp only [List.forall_mem_cons]
    exact ⟨name, isField_padded _ _, nofun⟩
  · rintro _ ⟨⟩
    exact closed_padded _ _

theorem written_importRecord {name : String} (isField : IsField name.toList)
    (closed : Closed name.toList) : (importRecord name).Written := by
  refine written_of_fields (by decide) (by decide) (List.cons_ne_nil _ _) ?_ ?_
  · simp only [List.forall_mem_cons]
    exact ⟨isField, nofun⟩
  · rintro _ ⟨⟩
    exact closed

theorem written_textRecord (address : Nat) (bytes : List UInt8) :
    (textRecord address bytes).Written := by
  have plain : ∀ c ∈ Hex.ofBytes bytes, c ≠ '^' ∧ c ≠ '\n' ∧ c ≠ '+' ∧ Text.isBlank c = false ∧
      c.utf8Size = 1 := fun c member => (Hex.isDigit_of_mem_ofBytes member).plain
  refine written_of_fields (by decide) (by decide) (List.cons_ne_nil _ _) ?_ ?_
  · simp only [List.forall_mem_cons]
    refine ⟨isField_padded _ _, isField_padded _ _, ⟨?_, ?_⟩, nofun⟩
    · exact fun member => (plain _ member).1 rfl
    · exact fun member => (plain _ member).2.1 rfl
  · rintro _ ⟨⟩
    exact .of_forall fun c member => (plain c member).2.2.2.1

theorem written_fixupRecord (start : Nat) {record : Relocation}
    (symbol : IsField record.symbol.toList) (closed : Closed record.symbol.toList) :
    (fixupRecord start record).Written := by
  refine written_of_fields (by decide) (by decide) (List.cons_ne_nil _ _) ?_ ?_
  · have marked : IsField ('+' :: record.symbol.toList) := by
      simp only [IsField, List.mem_cons, not_or]
      exact ⟨⟨by decide, symbol.1⟩, by decide, symbol.2⟩
    simp only [List.forall_mem_cons]
    exact ⟨isField_padded _ _, isField_padded _ _, marked, nofun⟩
  · rintro _ ⟨⟩
    exact closed.cons (by decide)

theorem written_entryRecord (object : Object) : object.entryRecord.Written := by
  refine written_of_fields (by decide) (by decide) (List.cons_ne_nil _ _) ?_ ?_
  · simp only [List.forall_mem_cons]
    exact ⟨isField_padded _ _, nofun⟩
  · rintro _ ⟨⟩
    exact closed_padded _ _

/-- The relocation records that are written: a fully relocated module has none. -/
def writtenRelocations (object : Object) : List Relocation :=
  if object.fullyRelocated then [] else object.relocations

theorem records_eq (object : Object) : object.records =
    [object.headerRecord] ++ object.symbols.exported.map symbolRecord ++
    object.imports.map importRecord ++
    (chunks object.code).map (fun (offset, bytes) =>
      textRecord (object.start.toNat + offset) bytes) ++
    object.writtenRelocations.map (fixupRecord object.start.toNat) ++ [object.entryRecord] := by
  unfold records writtenRelocations
  cases object.fullyRelocated <;> rfl

/-- **Every record of a module can be read back from its line.** -/
theorem WritableNames.written (names : object.WritableNames) :
    ∀ record ∈ object.records, record.Written := by
  rw [records_eq]
  simp only [List.forall_mem_append, List.forall_mem_singleton, List.forall_mem_map]
  refine ⟨⟨⟨⟨⟨written_headerRecord names.name, ?_⟩, ?_⟩, ?_⟩, ?_⟩, written_entryRecord object⟩
  · exact fun symbol member => written_symbolRecord (names.symbols symbol member)
  · exact fun name member =>
      written_importRecord (names.imports name member).1 (names.imports name member).2
  · exact fun _ _ => written_textRecord _ _
  · intro record member
    have inRelocations : record ∈ object.relocations := by
      unfold writtenRelocations at member
      split at member
      · cases member
      · exact member
    exact written_fixupRecord _ (names.relocations record inRelocations).1
      (names.relocations record inRelocations).2

theorem WritableNames.recordsOfText_toText (names : object.WritableNames) :
    recordsOfText object.toText.toList = numbered 1 object.records := by
  rw [toText, String.toList_ofList, recordsOfText_unlines names.written]

/-- **Modules with the same text have the same records.** -/
theorem records_eq_of_toText_eq (names : object.WritableNames) (otherNames : other.WritableNames)
    (same : object.toText = other.toText) : object.records = other.records := by
  have numberedSame : numbered 1 object.records = numbered 1 other.records := by
    rw [← names.recordsOfText_toText, ← otherNames.recordsOfText_toText, same]
  have unnumbered : ∀ records : List Record, (numbered 1 records).map Prod.snd = records := by
    intro records
    rw [numbered, List.map_map]
    exact List.zipIdx_map_fst 1 records
  rw [← unnumbered object.records, numberedSame, unnumbered]

end Sicxe.Object
