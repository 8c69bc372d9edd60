import Sicxe.Proofs.Object.Reading
import Sicxe.Proofs.Symbol.Table

/-!
# What was read can be written

A module that was read from a text can be written, and its text is read as the same module. A field
of a record that was cut out of a line fits in a line again, and the rest is kept by every record
that is read.

* `Object.Record.Tidy`: what the records of every text are like, with `tidy_of_mem_recordsOfText`.
* `Object.Draft.Legible`: what the records read so far keep.
* `Object.legible_of_ofText`: every module that is read is legible.
-/

namespace Sicxe.Object

open SymbolTable (Builder)
open Text (Closed)

/-! ### Records of a text -/

/-- The fields of a record fit in a line, and the last one does not end in a blank. -/
structure Record.Tidy (record : Record) : Prop where
  fields : ∀ field ∈ record, IsField field
  closed : ∀ last, record.getLast? = some last → Closed last

theorem Record.Tidy.tail {kind : List Char} {fields : Record}
    (tidy : Record.Tidy (kind :: fields)) : fields.Tidy := by
  refine ⟨fun field member => tidy.fields field (List.mem_cons_of_mem _ member), ?_⟩
  intro last isLast
  refine tidy.closed last ?_
  rw [List.getLast?_cons, isLast, Option.getD_some]

theorem Record.tidy_ofLine {line : List Char} (single : '\n' ∉ line) (closed : Closed line) :
    (Record.ofLine line).Tidy := by
  refine ⟨fun field member => ?_, fun last isLast => Text.closed_splitOn '^' closed isLast⟩
  obtain ⟨unmarked, inLine⟩ := Text.of_mem_splitOn member
  exact ⟨unmarked, fun inField => single (inLine _ inField)⟩

/-- **The records of a text are tidy**, whatever the text. -/
theorem tidy_of_mem_recordsOfText {text : List Char} {number : Nat} {record : Record}
    (member : (number, record) ∈ recordsOfText text) : record.Tidy := by
  obtain ⟨⟨line, index⟩, inLines, isRecord⟩ := List.mem_filterMap.mp member
  have single : '\n' ∉ Text.trimRight line := fun inLine =>
    Text.not_mem_of_mem_lines (List.fst_mem_of_mem_zipIdx inLines)
      (Text.mem_of_mem_trimRight inLine)
  dsimp only at isRecord
  split at isRecord
  · cases isRecord
  · cases isRecord
    exact Record.tidy_ofLine single (Text.closed_trimRight line)

/-! ### Reading the records -/

/-- What has been read so far can be written. -/
structure Draft.Legible (draft : Draft) : Prop where
  name : IsField draft.name.toList
  trimmed : Text.trim draft.name.toList = draft.name.toList
  limit : draft.start + draft.length ≤ addressSpace
  symbols : ∃ symbols, draft.symbols = Builder.ofList symbols ∧ (symbols.map Symbol.name).Nodup ∧
    ∀ symbol ∈ symbols, IsField symbol.name.toList
  imports : ∀ name ∈ draft.imports, IsField name.toList ∧ Closed name.toList
  distinctImports : draft.imports.Nodup
  relocations : ∀ record ∈ draft.relocations, (IsField record.symbol.toList ∧
    Closed record.symbol.toList) ∧ record.Regular ∧ draft.start + record.offset < Numeral.wordBound

variable {draft next : Draft} {line : Nat} {fields : Record}

theorem readNumber_lt {what : String} {field : List Char} {number : Nat}
    (read : readNumber line what field = .ok number) : number < Numeral.wordBound := by
  unfold readNumber at read
  split at read
  · rename_i spelled
    cases read
    unfold Numeral.natural? at spelled
    simpa using (Option.filter_eq_some_iff.mp spelled).2
  · cases read

/-- A header begins with a trimmed name and a module inside the address space. -/
theorem Draft.legible_readHeader (tidy : fields.Tidy)
    (read : readHeader line fields = .ok draft) : draft.Legible := by
  unfold readHeader at read
  split at read
  · rename_i name start length
    obtain ⟨start, _, read⟩ := bind_eq_ok_iff.mp read
    obtain ⟨length, _, read⟩ := bind_eq_ok_iff.mp read
    split at read
    · rename_i limit
      cases read
      have isField := tidy.fields name List.mem_cons_self
      refine ⟨?_, ?_, limit, ⟨[], rfl, List.nodup_nil, nofun⟩, nofun, List.nodup_nil, nofun⟩
      · rw [String.toList_ofList]
        exact ⟨fun mark => isField.1 (Text.mem_of_mem_trim mark),
          fun feed => isField.2 (Text.mem_of_mem_trim feed)⟩
      · rw [String.toList_ofList, Text.trim_trim]
    · cases read
  · cases read

/-- A field of as many half bytes as a record can name is regular. -/
theorem regular_ofHalfBytes {halfBytes : Nat} (inRange : ¬(halfBytes < 1 ∨ 8 < halfBytes))
    (offset : Nat) (symbol : String) :
    (⟨offset, symbol, (halfBytes + 1) / 2, halfBytes, halfBytes == 3⟩ : Relocation).Regular where
  least := by
    dsimp only
    omega
  greatest := by
    dsimp only
    omega
  length := rfl
  relative := rfl

namespace Draft.Legible

theorem readSymbol (legible : draft.Legible) (tidy : fields.Tidy)
    (read : readSymbol draft line fields = .ok next) : next.Legible := by
  unfold Object.readSymbol at read
  split at read
  · rename_i name address
    obtain ⟨address, _, read⟩ := bind_eq_ok_iff.mp read
    obtain ⟨symbols, table, distinct, names⟩ := legible.symbols
    rw [table, Builder.insert_ofList] at read
    by_cases known : String.ofList name ∈ symbols.map Symbol.name
    · rw [if_pos known] at read
      cases read
    · rw [if_neg known] at read
      cases read
      refine { legible with symbols := ⟨_, rfl, ?_, ?_⟩ }
      · rw [List.map_append, List.nodup_append]
        refine ⟨distinct, List.nodup_singleton _, fun old isOld added isAdded same => ?_⟩
        rw [List.map_singleton, List.mem_singleton] at isAdded
        rw [same, isAdded] at isOld
        exact known isOld
      · rw [List.forall_mem_append, List.forall_mem_singleton, String.toList_ofList]
        exact ⟨names, tidy.fields name List.mem_cons_self⟩
  · cases read

theorem readImport (legible : draft.Legible) (tidy : fields.Tidy)
    (read : readImport draft line fields = .ok next) : next.Legible := by
  unfold Object.readImport at read
  split at read
  · rename_i name
    cases read
    refine { legible with
      imports := fun other member => ?_
      distinctImports := nodup_addName legible.distinctImports _ }
    rcases (mem_addName _ _ other).mp member with old | rfl
    · exact legible.imports other old
    · rw [String.toList_ofList]
      exact ⟨tidy.fields name List.mem_cons_self, tidy.closed name rfl⟩
  · cases read

theorem readText (legible : draft.Legible) (read : readText draft line fields = .ok next) :
    next.Legible := by
  unfold Object.readText at read
  split at read
  · obtain ⟨address, _, read⟩ := bind_eq_ok_iff.mp read
    obtain ⟨length, _, read⟩ := bind_eq_ok_iff.mp read
    split at read
    · cases read
    · split at read
      · cases read
      · split at read
        · cases read
        · split at read
          · cases read
          · obtain ⟨bytes, _, same⟩ := bind_eq_ok_iff.mp read
            cases same
            exact { legible with }
  · cases read

theorem readFixup (legible : draft.Legible) (tidy : fields.Tidy)
    (read : readFixup draft line fields = .ok next) : next.Legible := by
  unfold Object.readFixup at read
  split at read
  · obtain ⟨address, readAddress, readRest⟩ := bind_eq_ok_iff.mp read
    obtain ⟨count, _, checked⟩ := bind_eq_ok_iff.mp readRest
    clear read readRest
    have small := readNumber_lt readAddress
    dsimp only at checked
    split at checked
    · cases checked
    · rename_i inRange
      split at checked
      · rename_i symbol
        split at checked
        · cases checked
        · rename_i behind
          cases checked
          have isField : IsField ('+' :: symbol) := tidy.fields _ (by simp)
          have isClosed : Closed (['+'] ++ symbol) := tidy.closed _ rfl
          refine { legible with relocations := fun record member => ?_ }
          rcases Array.mem_push.mp member with old | rfl
          · exact legible.relocations record old
          · rw [String.toList_ofList]
            refine ⟨⟨isField.tail, isClosed.of_append⟩, regular_ofHalfBytes inRange _ _, ?_⟩
            dsimp only
            omega
      · cases checked
  · cases read

theorem readEntry (legible : draft.Legible) (read : readEntry draft line fields = .ok next) :
    next.Legible := by
  unfold Object.readEntry at read
  split at read
  · obtain ⟨entry, _, same⟩ := bind_eq_ok_iff.mp read
    cases same
    exact { legible with }
  · cases read

/-- **Every record keeps what has been read legible.** -/
theorem readRecord {record : Record} (legible : draft.Legible) (tidy : record.Tidy)
    (read : readRecord draft line record = .ok next) : next.Legible := by
  unfold Object.readRecord at read
  split at read
  · cases read
  · exact legible.readSymbol tidy.tail read
  · exact legible.readImport tidy.tail read
  · exact legible.readText read
  · exact legible.readFixup tidy.tail read
  · exact legible.readEntry read
  · cases read
  · cases read

theorem readRecords {records : List (Nat × Record)} (legible : draft.Legible)
    (tidy : ∀ numbered ∈ records, numbered.2.Tidy)
    (read : readRecords draft records = .ok next) : next.Legible := by
  induction records generalizing draft with
  | nil =>
    cases read
    exact legible
  | cons numbered rest ih =>
    unfold Object.readRecords at read
    split at read
    · rename_i first
      exact ih (legible.readRecord (tidy numbered List.mem_cons_self) first)
        (fun other member => tidy other (List.mem_cons_of_mem _ member)) read
    · cases read

end Draft.Legible

/-! ### The whole module -/

theorem legible_ofDraft {object : Object} (legible : draft.Legible)
    (read : ofDraft draft = .ok object) : object.Legible := by
  unfold ofDraft at read
  split at read
  · rename_i whole
    cases read
    have limit : draft.start + draft.length ≤ 0x100000 := legible.limit
    have start : (UInt32.ofNat draft.start).toNat = draft.start := by
      rw [UInt32.toNat_ofNat']
      omega
    obtain ⟨symbols, table, distinct, names⟩ := legible.symbols
    have isTable : draft.symbols.build = ⟨symbols⟩ := by rw [table, Builder.build_ofList]
    have ofRelocations : ∀ record ∈ draft.relocations.toList, record ∈ draft.relocations :=
      fun record member => Array.mem_toList_iff.mp member
    constructor
    · refine ⟨legible.name, fun symbol member => names symbol ?_, legible.imports,
        fun record member => (legible.relocations record (ofRelocations record member)).1⟩
      rw [isTable] at member
      exact List.mem_of_mem_filter member
    · exact legible.trimmed
    · rw [isTable]
      exact distinct.sublist (List.filter_sublist.map _)
    · exact legible.distinctImports
    · exact fun record member => (legible.relocations record (ofRelocations record member)).2.1
    · intro record member
      rw [start]
      exact (legible.relocations record (ofRelocations record member)).2.2
    · show (UInt32.ofNat draft.start).toNat + draft.code.size ≤ 0x100000
      rw [start, whole]
      exact limit
    · intro fixed
      rw [Bool.and_eq_true, Array.isEmpty_iff] at fixed
      rw [fixed.1]
  · cases read

/-- **Every module that is read is legible**, whatever its text. -/
theorem legible_of_ofText {text : String} {object : Object} (read : ofText text = .ok object) :
    object.Legible := by
  have tidy : ∀ numbered ∈ recordsOfText text.toList, numbered.2.Tidy :=
    fun _ member => tidy_of_mem_recordsOfText member
  unfold ofText ofRecords at read
  split at read
  · cases read
  · rename_i line fields rest isText
    rw [isText, List.forall_mem_cons] at tidy
    obtain ⟨header, readHeader, read⟩ := bind_eq_ok_iff.mp read
    obtain ⟨draft, readRest, read⟩ := bind_eq_ok_iff.mp read
    have begun := Draft.legible_readHeader tidy.1.tail readHeader
    exact legible_ofDraft (begun.readRecords tidy.2 readRest) read
  · cases read

end Sicxe.Object
