import Sicxe.Proofs.Object.Records
import Sicxe.Proofs.Success
import Sicxe.Proofs.Symbol.Builder

/-!
# Reading a written module

The records of a module are read in the order in which they were written, and each kind of them
adds its part to the draft: `Reads` tells from which draft to which.

* `Object.Legible`: what makes the text of a module readable.
* `Object.ofText_toText`: the text of a legible module describes `Object.readBack`, the module
  without what its text does not tell.
-/

namespace Sicxe

/-- The symbol taken for an address of its program: object text does not tell constants apart. -/
def Symbol.asAddress (symbol : Symbol) : Symbol :=
  { symbol with absolute := false }

/-- The length and the kind of a field are those that its half bytes tell. -/
structure Relocation.Regular (record : Relocation) : Prop where
  least : 1 ≤ record.halfBytes
  greatest : record.halfBytes ≤ 8
  length : record.length = (record.halfBytes + 1) / 2
  relative : record.relative = (record.halfBytes == 3)

namespace Object

open SymbolTable (Builder)

variable {draft middle next : Draft} {line : Nat} {record : Record} {records rest : List Record}

/-! ### Records one after another -/

/-- Reading some records turns one draft into another, on whatever lines they stand. -/
def Reads (draft : Draft) (records : List Record) (next : Draft) : Prop :=
  ∀ line, readRecords draft (numbered line records) = .ok next

theorem Reads.nil (draft : Draft) : Reads draft [] draft :=
  fun _ => rfl

theorem Reads.cons (first : ∀ line, readRecord draft line record = .ok middle)
    (later : Reads middle rest next) : Reads draft (record :: rest) next := by
  intro line
  show readRecords draft ((line, record) :: numbered (line + 1) rest) = .ok next
  rw [readRecords, first]
  exact later (line + 1)

theorem Reads.append (first : Reads draft records middle) (second : Reads middle rest next) :
    Reads draft (records ++ rest) next := by
  have split : ∀ (pairs others : List (Nat × Record)) (draft : Draft),
      readRecords draft pairs = .ok middle →
        readRecords draft (pairs ++ others) = readRecords middle others := by
    intro pairs others
    induction pairs with
    | nil => exact fun draft same => by cases same; rfl
    | cons pair pairs ih =>
      intro draft succeeded
      unfold readRecords at succeeded
      rw [List.cons_append, readRecords]
      split at succeeded
      · exact ih _ succeeded
      · cases succeeded
  intro line
  have two : numbered line (records ++ rest) =
      numbered line records ++ numbered (line + records.length) rest := by
    rw [numbered, List.zipIdx_append, List.map_append]
    rfl
  rw [two, split _ _ _ (first line)]
  exact second _

theorem Reads.of_eq {other : Draft} (reads : Reads draft records next) (same : next = other) :
    Reads draft records other :=
  same ▸ reads

/-! ### The records of each kind -/

theorem readNumber_padded (line : Nat) (what : String) (width : Nat) {number : Nat}
    (small : number < Numeral.wordBound) :
    readNumber line what (Hex.padded width number) = .ok number := by
  rw [readNumber, Hex.natural?_padded width small]

/-- Symbols with different names are all taken in. -/
theorem reads_symbols (before : List Symbol) {symbols : List Symbol}
    (table : draft.symbols = Builder.ofList before)
    (exported : ∀ symbol ∈ symbols, symbol.exported = true)
    (unique : ((before ++ symbols).map Symbol.name).Nodup) :
    Reads draft (symbols.map symbolRecord)
      { draft with symbols := Builder.ofList (before ++ symbols.map Symbol.asAddress) } := by
  induction symbols generalizing draft before with
  | nil =>
    simp only [List.map_nil, List.append_nil, ← table]
    exact .nil draft
  | cons symbol rest ih =>
    have newName : symbol.asAddress.name ∉ before.map Symbol.name := by
      intro known
      rw [List.map_append, List.map_cons] at unique
      exact (List.nodup_append.mp unique).2.2 _ known _ List.mem_cons_self rfl
    have isExported := exported symbol List.mem_cons_self
    have first : ∀ line, readRecord draft line (symbolRecord symbol) =
        .ok { draft with symbols := Builder.ofList (before ++ [symbol.asAddress]) } := by
      intro line
      have same : (⟨String.ofList symbol.name.toList, UInt32.ofNat symbol.address.toNat, true,
          false⟩ : Symbol) = symbol.asAddress := by
        rw [String.ofList_toList, UInt32.ofNat_toNat, Symbol.asAddress, isExported]
      refine bind_eq_ok_iff.mpr ⟨_, readNumber_padded line _ 6 symbol.address.toNat_lt, ?_⟩
      rw [same, table, Builder.insert_ofList, if_neg newName]
      rfl
    refine .cons first ((ih (before ++ [symbol.asAddress]) rfl ?_ ?_).of_eq ?_)
    · exact fun other member => exported other (List.mem_cons_of_mem _ member)
    · simpa [Symbol.asAddress] using unique
    · rw [List.append_assoc, List.map_cons]
      rfl

/-- The bytes of a payload come back. -/
theorem readPayload_ofBytes (line : Nat) (bytes : List UInt8) :
    readPayload line bytes.length (Hex.ofBytes bytes) = .ok bytes := by
  induction bytes with
  | nil => rfl
  | cons byte rest ih =>
    have bound := byte.toNat_lt
    have high : (Hex.digit (byte.toNat / 16)).utf8Size = 1 :=
      (Hex.IsDigit.plain ⟨_, by omega, rfl⟩).2.2.2.2
    have low : (Hex.digit (byte.toNat % 16)).utf8Size = 1 :=
      (Hex.IsDigit.plain ⟨_, by omega, rfl⟩).2.2.2.2
    have front : takePair? (Hex.ofBytes (byte :: rest)) =
        some (Hex.padded 2 byte.toNat, Hex.ofBytes rest) := by
      rw [Hex.ofBytes, List.flatMap_cons, Hex.padded_byte]
      show takePair? (_ :: _ :: Hex.ofBytes rest) = _
      rw [takePair?, high, if_neg (by decide), if_pos rfl]
      exact if_pos low
    have small : byte.toNat < Numeral.wordBound := by
      unfold Numeral.wordBound
      omega
    rw [List.length_cons, readPayload, front]
    refine bind_eq_ok_iff.mpr ⟨_, readNumber_padded line _ 2 small, ?_⟩
    refine bind_eq_ok_iff.mpr ⟨_, ih, ?_⟩
    rw [UInt8.ofNat_toNat]
    rfl

/-- A stretch of code is taken in behind the code before it. -/
theorem readRecord_text (draft : Draft) (bytes : List UInt8)
    (short : bytes.length ≤ maxTextLength)
    (inside : draft.code.size + bytes.length ≤ draft.length)
    (bounded : draft.start + draft.length ≤ addressSpace) (line : Nat) :
    readRecord draft line (textRecord (draft.start + draft.code.size) bytes) =
      .ok { draft with code := draft.code.appendList bytes } := by
  have address : draft.start + draft.code.size < Numeral.wordBound := by
    unfold addressSpace at bounded
    unfold Numeral.wordBound
    omega
  have length : bytes.length < Numeral.wordBound := by
    unfold maxTextLength at short
    unfold Numeral.wordBound
    omega
  refine bind_eq_ok_iff.mpr ⟨_, readNumber_padded line _ 6 address, ?_⟩
  refine bind_eq_ok_iff.mpr ⟨_, readNumber_padded line _ 2 length, ?_⟩
  rw [if_neg (by omega), if_neg (by simp), Hex.byteLength_ofBytes, if_neg (by simp),
    if_neg (by omega)]
  exact bind_eq_ok_iff.mpr ⟨_, readPayload_ofBytes line bytes, rfl⟩

/-- The first bytes of some code and the stretch behind them are more of its first bytes. -/
theorem extract_appendList (code : Array UInt8) (position length : Nat) :
    (code.extract 0 position).appendList (code.extract position (position + length)).toList =
      code.extract 0 (position + length) := by
  refine Array.toList_inj.mp ?_
  rw [Array.appendList_eq_append, Array.toList_appendList, ← Array.toList_append,
    Array.extract_append_extract, Nat.min_eq_left (Nat.zero_le _),
    Nat.max_eq_right (Nat.le_add_right _ _)]

/-- Some stretches at the beginning of the code are taken in one after another. -/
theorem reads_stretches (code : Array UInt8) (empty : draft.code = #[])
    (whole : draft.length = code.size) (bounded : draft.start + draft.length ≤ addressSpace)
    (count : Nat) (reached : maxTextLength * count < code.size + maxTextLength) :
    Reads draft
      ((List.range count).map fun index =>
        textRecord (draft.start + maxTextLength * index)
          (code.extract (maxTextLength * index) (maxTextLength * index + maxTextLength)).toList)
      { draft with code := code.extract 0 (maxTextLength * count) } := by
  induction count with
  | zero =>
    have none : code.extract 0 (maxTextLength * 0) = draft.code := by
      rw [Nat.mul_zero, Array.extract_zero, empty]
    rw [none]
    exact .nil draft
  | succ count ih =>
    have position : maxTextLength * (count + 1) = maxTextLength * count + maxTextLength := rfl
    have size : (code.extract 0 (maxTextLength * count)).size = maxTextLength * count := by
      rw [Array.size_extract]
      omega
    have length : (code.extract (maxTextLength * count)
        (maxTextLength * count + maxTextLength)).toList.length =
          min (maxTextLength * count + maxTextLength) code.size - maxTextLength * count := by
      rw [Array.length_toList, Array.size_extract]
    have last := readRecord_text { draft with code := code.extract 0 (maxTextLength * count) }
      (code.extract (maxTextLength * count) (maxTextLength * count + maxTextLength)).toList
      (by omega) (by dsimp only; omega) bounded
    dsimp only at last
    rw [size, extract_appendList, ← position] at last
    rw [List.range_succ, List.map_append]
    exact (ih (by omega)).append (.cons last (.nil _))

/-- **The stretches of some code are taken in one after another.** -/
theorem reads_text (code : Array UInt8) (empty : draft.code = #[])
    (whole : draft.length = code.size) (bounded : draft.start + draft.length ≤ addressSpace) :
    Reads draft ((chunks code).map fun (offset, bytes) => textRecord (draft.start + offset) bytes)
      { draft with code } := by
  have all := reads_stretches code empty whole bounded
    ((code.size + (maxTextLength - 1)) / maxTextLength) (by unfold maxTextLength; omega)
  rw [Array.extract_eq_self_of_le (by unfold maxTextLength; omega)] at all
  rw [chunks, List.map_map]
  exact all

/-- Different names are all taken in. -/
theorem reads_imports {imports : List String} (unique : (draft.imports ++ imports).Nodup) :
    Reads draft (imports.map importRecord) { draft with imports := draft.imports ++ imports } := by
  induction imports generalizing draft with
  | nil =>
    simp only [List.map_nil, List.append_nil]
    exact .nil draft
  | cons name rest ih =>
    have newName : name ∉ draft.imports := fun known =>
      (List.nodup_append.mp unique).2.2 _ known _ List.mem_cons_self rfl
    have added : addName draft.imports name = draft.imports ++ [name] := by
      rw [addName, if_neg (by simpa using newName)]
    have first : ∀ line, readRecord draft line (importRecord name) =
        .ok { draft with imports := draft.imports ++ [name] } := by
      intro line
      show Except.ok { draft with imports := addName draft.imports (String.ofList name.toList) } = _
      rw [String.ofList_toList, added]
    refine .cons first ((ih ?_).of_eq ?_)
    · rwa [List.append_assoc]
    · rw [List.append_assoc]
      rfl

/-- Fields are taken in when their half bytes tell the rest. -/
theorem reads_fixups {relocations : List Relocation}
    (regular : ∀ record ∈ relocations, record.Regular)
    (bounded : ∀ record ∈ relocations, draft.start + record.offset < Numeral.wordBound) :
    Reads draft (relocations.map (fixupRecord draft.start))
      { draft with relocations := draft.relocations.appendList relocations } := by
  induction relocations generalizing draft with
  | nil => exact .nil draft
  | cons record rest ih =>
    obtain ⟨least, greatest, length, relative⟩ := regular record List.mem_cons_self
    have first : ∀ line, readRecord draft line (fixupRecord draft.start record) =
        .ok { draft with relocations := draft.relocations.push record } := by
      intro line
      have small : record.halfBytes < Numeral.wordBound := by
        unfold Numeral.wordBound
        omega
      refine bind_eq_ok_iff.mpr
        ⟨_, readNumber_padded line _ 6 (bounded record List.mem_cons_self), ?_⟩
      refine bind_eq_ok_iff.mpr ⟨_, readNumber_padded line _ 2 small, ?_⟩
      have halfBytes : record.halfBytes % 256 = record.halfBytes := Nat.mod_eq_of_lt (by omega)
      have same : (⟨draft.start + record.offset - draft.start, String.ofList record.symbol.toList,
          (record.halfBytes + 1) / 2, record.halfBytes, record.halfBytes == 3⟩ : Relocation) =
            record := by
        rw [Nat.add_sub_cancel_left, String.ofList_toList, ← length, ← relative]
      dsimp only
      rw [halfBytes, if_neg (by omega)]
      show (if draft.start + record.offset < draft.start then _ else _) = _
      rw [if_neg (by omega), same]
      rfl
    refine .cons first ((ih ?_ ?_).of_eq ?_)
    · exact fun other member => regular other (List.mem_cons_of_mem _ member)
    · exact fun other member => bounded other (List.mem_cons_of_mem _ member)
    · rfl

theorem reads_entry (draft : Draft) (object : Object) :
    Reads draft [object.entryRecord] { draft with entry := some object.entry.toNat } := by
  refine .cons (fun line => ?_) (.nil _)
  exact bind_eq_ok_iff.mpr ⟨_, readNumber_padded line _ 6 object.entry.toNat_lt, rfl⟩

/-! ### A whole module -/

/-- What makes the text of a module readable. -/
structure Legible (object : Object) : Prop extends WritableNames object where
  trimmed : Text.trim object.name.toList = object.name.toList
  distinctSymbols : (object.symbols.exported.map Symbol.name).Nodup
  distinctImports : object.imports.Nodup
  regular : ∀ record ∈ object.relocations, record.Regular
  bounded : ∀ record ∈ object.relocations,
    object.start.toNat + record.offset < Numeral.wordBound
  limit : object.limit ≤ addressSpace
  /-- Text has no place for the records of a fully relocated module. -/
  movable : object.fullyRelocated = true → object.relocations = []

/-- The module as its text describes it: without symbols that are not exported, without its source
and with every symbol as an address. -/
def readBack (object : Object) : Object where
  name := object.name
  start := object.start
  entry := object.entry
  code := object.code
  symbols := ⟨object.symbols.exported.map Symbol.asAddress⟩
  imports := object.imports
  relocations := object.relocations
  fullyRelocated := object.relocations.isEmpty && object.imports.isEmpty

variable {object : Object}

/-- The draft that the header of a module begins. -/
def headerDraft (object : Object) : Draft where
  name := object.name
  start := object.start.toNat
  length := object.length

theorem readHeader_headerRecord (legible : object.Legible) (line : Nat) :
    readHeader line object.headerRecord.tail = .ok object.headerDraft := by
  have limit : object.start.toNat + object.length ≤ addressSpace := legible.limit
  have length : object.length < Numeral.wordBound := by
    unfold addressSpace at limit
    unfold Numeral.wordBound
    omega
  refine bind_eq_ok_iff.mpr ⟨_, readNumber_padded line _ 6 object.start.toNat_lt, ?_⟩
  refine bind_eq_ok_iff.mpr ⟨_, readNumber_padded line _ 6 length, ?_⟩
  rw [if_pos limit, List.rightpad, Text.trim_append_spaces, legible.trimmed, String.ofList_toList]
  rfl

/-- The draft that all records of a module make up. -/
def wholeDraft (object : Object) : Draft where
  name := object.name
  start := object.start.toNat
  length := object.length
  code := object.code
  symbols := Builder.ofList (object.symbols.exported.map Symbol.asAddress)
  imports := object.imports
  relocations := object.relocations.toArray
  entry := some object.entry.toNat

/-- **The records after the header make up the whole module.** -/
theorem reads_records (legible : object.Legible) :
    Reads object.headerDraft object.records.tail object.wholeDraft := by
  have written : object.writtenRelocations = object.relocations := by
    unfold writtenRelocations
    split
    · rename_i fixed
      exact (legible.movable fixed).symm
    · rfl
  have symbols : Reads object.headerDraft (object.symbols.exported.map symbolRecord) _ :=
    reads_symbols [] rfl (fun symbol member => by simpa using (List.mem_filter.mp member).2)
      legible.distinctSymbols
  rw [List.nil_append] at symbols
  have imports := symbols.append (reads_imports legible.distinctImports)
  have code := imports.append (reads_text object.code rfl rfl legible.limit)
  have relocations := code.append (reads_fixups legible.regular legible.bounded)
  have all := relocations.append (reads_entry _ object)
  rw [records_eq, written]
  refine all.of_eq ?_
  have fromEmpty : object.headerDraft.relocations.appendList object.relocations =
      object.relocations.toArray := by
    refine Array.toList_inj.mp ?_
    rw [Array.appendList_eq_append, Array.toList_appendList]
    rfl
  dsimp only
  rw [fromEmpty]
  rfl

/-- **The text of a legible module describes the module**, less what the text does not tell. -/
theorem ofText_toText (legible : object.Legible) :
    ofText object.toText = .ok object.readBack := by
  have whole : ofDraft object.wholeDraft = .ok object.readBack := by
    have complete : object.wholeDraft.code.size = object.wholeDraft.length := rfl
    rw [ofDraft, if_pos complete]
    simp only [wholeDraft, readBack, UInt32.ofNat_toNat, Option.getD_some, Builder.build_ofList,
      List.isEmpty_toArray]
  rw [ofText, legible.toWritableNames.recordsOfText_toText]
  show ofRecords ((1, object.headerRecord) :: numbered 2 object.records.tail) = _
  refine bind_eq_ok_iff.mpr ⟨_, readHeader_headerRecord legible 1, ?_⟩
  exact bind_eq_ok_iff.mpr ⟨_, reads_records legible 2, whole⟩

end Object

end Sicxe
