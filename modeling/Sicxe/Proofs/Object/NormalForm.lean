import Sicxe.Proofs.Object.Legible

/-!
# The normal form of object text

Many texts describe one module: records may stand in any order, an entry or an import may be
repeated, and a stretch of code may be cut up at will. The text that is written for a module that
was read is the normal form of all these texts. It describes the very module that was read, since a
module that comes from a text has nothing that its text cannot tell: all its symbols are exported
addresses of its program, and its fields and imports say whether it can be moved.

* `Object.readBack_of_ofText`: a module that was read has nothing that its text does not tell.
* `Object.ofText_toText_of_ofText`: **writing it and reading it once more gives it back.**
* `Object.toText_inj_of_ofText`: two modules that were read have the same normal form only if they
  are the same.
-/

namespace Sicxe

/-- Object text tells all of the symbol: it is exported, and an address of its program. -/
def Symbol.Told (symbol : Symbol) : Prop :=
  symbol.exported = true ∧ symbol.absolute = false

theorem Symbol.asAddress_of_told {symbol : Symbol} (told : symbol.Told) :
    symbol.asAddress = symbol := by
  rw [Symbol.asAddress, ← told.2]

/-- An entry after a symbol was put in is the one of the symbol or an old one. -/
theorem SymbolTable.Builder.mem_entries_insert {builder next : Builder} {symbol : Symbol}
    {entry : Entry} (inserted : builder.insert symbol = .ok next) (member : entry ∈ next.entries) :
    entry = ⟨symbol, true⟩ ∨ entry ∈ builder.entries := by
  unfold insert upsert at inserted
  by_cases defined : builder.isDefined symbol.name
  · rw [if_pos defined] at inserted
    cases inserted
  rw [if_neg defined] at inserted
  by_cases known : (builder.find? symbol.name).isSome
  · rw [if_pos known] at inserted
    cases inserted
    obtain ⟨old, isOld, rfl⟩ := List.mem_map.mp member
    by_cases named : old.symbol.name == symbol.name
    · simp [named]
    · simp [named, isOld]
  · rw [if_neg known] at inserted
    cases inserted
    simpa [or_comm] using member

namespace Object

open SymbolTable (Builder)

variable {draft next : Draft} {line : Nat} {record fields : Record}

/-! ### The symbols that are read -/

/-- All symbols read so far are told by text. -/
def Draft.Told (draft : Draft) : Prop :=
  ∀ entry ∈ draft.symbols.entries, entry.symbol.Told

/-- **What a record does to the symbols**: it leaves them as they are or puts in an exported
address. -/
theorem symbols_readRecord (read : readRecord draft line record = .ok next) :
    next.symbols = draft.symbols ∨
      ∃ name address, draft.symbols.insert ⟨name, address, true, false⟩ = .ok next.symbols := by
  unfold readRecord at read
  split at read
  · cases read
  · rename_i fields
    unfold readSymbol at read
    split at read
    · rename_i name address
      obtain ⟨address, _, read⟩ := bind_eq_ok_iff.mp read
      split at read
      · rename_i inserted
        cases read
        exact .inr ⟨_, _, inserted⟩
      · cases read
    · cases read
  -- The other records set fields of the draft that have no symbols in them.
  all_goals left
  · unfold readImport at read
    split at read <;> cases read
    rfl
  · unfold readText at read
    split at read
    · obtain ⟨address, _, read⟩ := bind_eq_ok_iff.mp read
      obtain ⟨length, _, read⟩ := bind_eq_ok_iff.mp read
      iterate 4
        split at read
        · cases read
      obtain ⟨bytes, _, same⟩ := bind_eq_ok_iff.mp read
      cases same
      rfl
    · cases read
  · unfold readFixup at read
    split at read
    · obtain ⟨address, _, readRest⟩ := bind_eq_ok_iff.mp read
      obtain ⟨count, _, checked⟩ := bind_eq_ok_iff.mp readRest
      clear read readRest
      dsimp only at checked
      split at checked
      · cases checked
      · split at checked
        · split at checked <;> cases checked
          rfl
        · cases checked
    · cases read
  · unfold readEntry at read
    split at read
    · obtain ⟨entry, _, same⟩ := bind_eq_ok_iff.mp read
      cases same
      rfl
    · cases read
  · cases read
  · cases read

theorem Draft.Told.readRecord (told : draft.Told) (read : readRecord draft line record = .ok next) :
    next.Told := by
  rcases symbols_readRecord read with same | ⟨name, address, inserted⟩
  · rwa [Draft.Told, same]
  · intro entry member
    rcases Builder.mem_entries_insert inserted member with rfl | old
    · exact ⟨rfl, rfl⟩
    · exact told entry old

theorem Draft.Told.readRecords {records : List (Nat × Record)} (told : draft.Told)
    (read : readRecords draft records = .ok next) : next.Told := by
  induction records generalizing draft with
  | nil =>
    cases read
    exact told
  | cons numbered rest ih =>
    unfold Object.readRecords at read
    split at read
    · rename_i first
      exact ih (told.readRecord first) read
    · cases read

theorem Draft.told_readHeader (read : readHeader line fields = .ok draft) : draft.Told := by
  have none : draft.symbols = {} := by
    unfold readHeader at read
    split at read
    · obtain ⟨start, _, read⟩ := bind_eq_ok_iff.mp read
      obtain ⟨length, _, read⟩ := bind_eq_ok_iff.mp read
      split at read <;> cases read
      rfl
    · cases read
  simp [Draft.Told, none]

/-! ### The module that is read -/

variable {text other : String} {object : Object}

/-- Text says nothing about a module that its own draft does not say. -/
theorem readBack_ofDraft (told : draft.Told) (read : ofDraft draft = .ok object) :
    object.readBack = object := by
  unfold ofDraft at read
  by_cases whole : draft.code.size = draft.length
  · rw [if_pos whole] at read
    cases read
    have toldSymbols : ∀ symbol ∈ draft.symbols.build.symbols, symbol.Told :=
      List.forall_mem_map.mpr told
    have exported : draft.symbols.build.exported = draft.symbols.build.symbols :=
      List.filter_eq_self.mpr fun symbol member => (toldSymbols symbol member).1
    have addresses : draft.symbols.build.exported.map Symbol.asAddress =
        draft.symbols.build.symbols := by
      rw [exported]
      exact (List.map_congr_left fun symbol member =>
        Symbol.asAddress_of_told (toldSymbols symbol member)).trans (List.map_id _)
    simp [readBack, addresses]
  · rw [if_neg whole] at read
    cases read

/-- **A module that was read has nothing that its text does not tell.** -/
theorem readBack_of_ofText (read : ofText text = .ok object) : object.readBack = object := by
  unfold ofText ofRecords at read
  split at read
  · cases read
  · obtain ⟨header, readHeader, read⟩ := bind_eq_ok_iff.mp read
    obtain ⟨draft, readRest, read⟩ := bind_eq_ok_iff.mp read
    exact readBack_ofDraft ((Draft.told_readHeader readHeader).readRecords readRest) read
  · cases read

/-- **Reading a text, writing the module and reading it again gives the module that was read**, in
every field and whatever the text was like. -/
theorem ofText_toText_of_ofText (read : ofText text = .ok object) :
    ofText object.toText = .ok object := by
  have written := ofText_toText (legible_of_ofText read)
  rwa [readBack_of_ofText read] at written

/-- A text with blank lines, blanks around the name, records in an unusual order, uneven and empty
stretches of code, and numbers that are too wide, too short or signed. -/
def untidyText : String :=
  "\n  \nH^ odd name ^+1000^0000000004  \nE^7\nT^1000^0^\nM^1001^003^+ a\tb\nR^  far\n" ++
  "\nT^1000^1^+f\nD^^fFfFfFfF\nT^1001^03^4b20+1   \nR^  far\nE^1001\n"

/-- The normal form of the untidy text. -/
def tidyText : String :=
  "H^odd name^001000^000004\nD^^FFFFFFFF\nR^  far\nT^001000^04^0F4B2001\n" ++
  "M^001001^03^+ a\tb\nE^001001\n"

theorem ofText_toText_untidyText :
    ∃ object, ofText untidyText = .ok object ∧ ofText object.toText = .ok object ∧
      object.toText = tidyText := by
  obtain ⟨object, read, normalForm⟩ :
      ∃ object, ofText untidyText = .ok object ∧ object.toText = tidyText :=
    exists_ok_of_map (by decide +kernel)
  exact ⟨object, read, ofText_toText_of_ofText read, normalForm⟩

/-- **Two modules that were read have the same normal form only if they are the same.** -/
theorem toText_inj_of_ofText {second : Object} (read : ofText text = .ok object)
    (readOther : ofText other = .ok second) :
    object.toText = second.toText ↔ object = second := by
  constructor
  · intro same
    have written := ofText_toText (legible_of_ofText read)
    have writtenOther := ofText_toText (legible_of_ofText readOther)
    rw [readBack_of_ofText read, same] at written
    rw [readBack_of_ofText readOther, written] at writtenOther
    exact Except.ok.inj writtenOther
  · exact congrArg toText

end Object

end Sicxe
