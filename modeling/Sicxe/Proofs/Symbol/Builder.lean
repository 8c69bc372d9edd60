import Mathlib.Data.List.Nodup
import Sicxe.Proofs.Success
import Sicxe.Symbol.Builder

/-!
# The entries of a growing symbol table

`SymbolTable.Builder.find?_upsert` says what a name finds after an entry was put in or changed, and
every operation of the builder is one such change. `find?_defineAs` and `find?_publish` read it for
definitions and exports, `isDefined_defineAs` and `isDefined_publish` say what is defined
afterwards, and `get?_of_defineAs` and `get?_of_publish` what stays as it was.
`insert_ofList` says what putting in one more symbol comes to.
-/

namespace Sicxe.SymbolTable.Builder

variable {builder next : Builder} {name other : String}

theorem name_of_find? {entry : Entry} (found : builder.find? name = some entry) :
    entry.symbol.name = name := by
  simpa using List.find?_some found

theorem name_of_get? {symbol : Symbol} (known : builder.get? name = some symbol) :
    symbol.name = name := by
  rw [get?, Option.map_eq_some_iff] at known
  obtain ⟨entry, isEntry, rfl⟩ := known
  exact name_of_find? (Option.filter_eq_some_iff.mp isEntry).1

theorem get?_build (builder : Builder) (name : String) :
    builder.build.get? name = (builder.find? name).map Entry.symbol := by
  rw [SymbolTable.get?, build, List.find?_map]
  rfl

/-- A defined name finds its symbol in the finished table. -/
theorem get?_build_of_get? {symbol : Symbol} (known : builder.get? name = some symbol) :
    builder.build.get? name = some symbol := by
  rw [get?, Option.map_eq_some_iff] at known
  obtain ⟨entry, isEntry, isSymbol⟩ := known
  rw [get?_build, (Option.filter_eq_some_iff.mp isEntry).1, Option.map_some, isSymbol]

theorem isDefined_eq_true_iff :
    builder.isDefined name = true ↔ ∃ entry, builder.find? name = some entry ∧ entry.defined := by
  rw [isDefined, Option.any_eq_true]

/-- **Only the entry of the name changes**, or comes to be. -/
theorem find?_upsert {change : Entry → Entry} {fresh : Entry}
    (keepsName : ∀ entry, entry.symbol.name = name → (change entry).symbol.name = name)
    (freshName : fresh.symbol.name = name) :
    (builder.upsert name change fresh).find? other =
      if other = name then some (((builder.find? name).map change).getD fresh)
      else builder.find? other := by
  unfold upsert
  cases known : builder.find? name with
  | some entry =>
    have entryName := name_of_find? known
    rw [if_pos Option.isSome_some, find?, List.find?_map]
    have sameTest : ((fun entry : Entry => entry.symbol.name == other) ∘ fun entry =>
        if entry.symbol.name == name then change entry else entry) =
        fun entry => entry.symbol.name == other := by
      funext entry
      simp only [Function.comp]
      split
      · rename_i named
        have named := eq_of_beq named
        rw [keepsName entry named, named]
      · rfl
    rw [sameTest]
    show (builder.find? other).map _ = _
    split
    · rename_i same
      rw [same, known, Option.map_some, entryName, if_pos (beq_self_eq_true name)]
      rfl
    · rename_i different
      cases found : builder.find? other with
      | none => rfl
      | some otherEntry =>
        rw [Option.map_some, name_of_find? found, if_neg (by simpa using different)]
  | none =>
    rw [if_neg (by simp), find?, List.find?_append]
    show (builder.find? other).or _ = _
    split
    · rename_i same
      rw [same, known, Option.none_or, List.find?_singleton, freshName,
        if_pos (beq_self_eq_true name)]
      rfl
    · rename_i different
      rw [List.find?_singleton, freshName, if_neg (by simpa using Ne.symm different),
        Option.or_none]

/-- A definition gives a name that had none its address, and keeps the entries of other names. -/
theorem find?_defineAs (other : String) {address : UInt32} {absolute : Bool}
    (defined : builder.defineAs name address absolute = .ok next) :
    builder.isDefined name = false ∧
      next.find? other =
        if other = name then
          some ⟨⟨name, address, (builder.find? name).any fun entry => entry.symbol.exported,
            absolute⟩, true⟩
        else builder.find? other := by
  unfold defineAs at defined
  split at defined
  · cases defined
  · rename_i free
    cases defined
    refine ⟨Bool.eq_false_iff.mpr free, ?_⟩
    rw [find?_upsert (by intro _ named; exact named) (by rfl)]
    cases known : builder.find? name with
    | none => rfl
    | some entry => rw [← name_of_find? known, Option.map_some, Option.getD_some, Option.any_some]

/-- A name has what it was defined as. -/
theorem get?_defined {address : UInt32} {absolute : Bool}
    (defined : builder.defineAs name address absolute = .ok next) :
    ∃ exported, next.get? name = some ⟨name, address, exported, absolute⟩ := by
  rw [get?, (find?_defineAs name defined).2, if_pos rfl]
  exact ⟨_, rfl⟩

/-- An export marks the entry of a name, and keeps the entries of other names. -/
theorem find?_publish (builder : Builder) (name : String) :
    (builder.publish name).find? other =
      if other = name then
        some (((builder.find? name).map fun entry =>
          { entry with symbol := { entry.symbol with exported := true } }).getD
            ⟨{ name, address := 0, exported := true }, false⟩)
      else builder.find? other :=
  find?_upsert (fun _ named => named) rfl

/-- A definition defines its name and no other. -/
theorem isDefined_defineAs (other : String) {address : UInt32} {absolute : Bool}
    (defined : builder.defineAs name address absolute = .ok next) :
    next.isDefined other = true ↔ builder.isDefined other = true ∨ other = name := by
  obtain ⟨_, found⟩ := find?_defineAs other defined
  rw [isDefined, found]
  split
  · rename_i same
    simp only [same, Option.any_some, or_true]
  · rename_i different
    simp only [different, or_false, isDefined]

/-- An export defines nothing. -/
theorem isDefined_publish (builder : Builder) (name other : String) :
    (builder.publish name).isDefined other = builder.isDefined other := by
  rw [isDefined, find?_publish]
  split
  · rename_i same
    subst same
    rw [isDefined]
    cases builder.find? other <;> rfl
  · rfl

/-- A definition keeps the symbols that are defined. -/
theorem get?_of_defineAs {address : UInt32} {absolute : Bool} {symbol : Symbol}
    (defined : builder.defineAs name address absolute = .ok next)
    (known : builder.get? other = some symbol) : next.get? other = some symbol := by
  obtain ⟨free, found⟩ := find?_defineAs other defined
  have different : other ≠ name := by
    rintro rfl
    rw [isDefined] at free
    rw [get?] at known
    generalize builder.find? other = entry at free known
    cases entry with
    | none => cases known
    | some entry =>
      rw [Option.any_some] at free
      rw [Option.filter_some, free] at known
      cases known
  rw [get?, found, if_neg different]
  exact known

/-- An export keeps the symbols that are defined, and marks one of them at most. -/
theorem get?_of_publish {symbol : Symbol} (name : String)
    (known : builder.get? other = some symbol) :
    (builder.publish name).get? other =
      some { symbol with exported := symbol.exported || other == name } := by
  rw [get?] at known
  rw [get?, find?_publish]
  split
  · rename_i same
    subst same
    generalize builder.find? other = entry at known
    cases entry with
    | none => cases known
    | some entry =>
      obtain ⟨entrySymbol, isDefined⟩ := entry
      cases isDefined with
      | false => cases known
      | true =>
        cases known
        simp only [Option.map_some, Option.getD_some, Option.filter_some, if_true, Bool.or_true,
          beq_self_eq_true]
  · rename_i different
    rw [known, beq_false_of_ne different, Bool.or_false]

/-- The first name of a table, defined and exported. -/
theorem defineExported_empty (name : String) (address : UInt32) :
    ({} : Builder).defineExported name address =
      .ok ⟨[⟨⟨name, address, true, false⟩, true⟩]⟩ := by
  simp [defineExported, define, defineAs, isDefined, find?, upsert, publish, Except.map]

/-! ### The names of a builder -/

/-- The names of the entries. -/
def names (builder : Builder) : List String :=
  builder.entries.map fun entry => entry.symbol.name

theorem names_build (builder : Builder) :
    builder.build.symbols.map Symbol.name = builder.names := by
  rw [build, List.map_map]
  rfl

theorem find?_isSome_iff : (builder.find? name).isSome = true ↔ name ∈ builder.names := by
  rw [find?, List.find?_isSome, names, List.mem_map]
  simp only [beq_iff_eq]

/-- A name that occurs once finds its entry. -/
theorem find?_of_mem {entry : Entry} (unique : builder.names.Nodup)
    (member : entry ∈ builder.entries) : builder.find? entry.symbol.name = some entry := by
  obtain ⟨other, found⟩ := Option.isSome_iff_exists.mp
    (find?_isSome_iff.mpr (List.mem_map.mpr ⟨entry, member, rfl⟩))
  rw [found, List.inj_on_of_nodup_map unique (List.mem_of_find?_eq_some found) member
    (name_of_find? found)]

/-- **Only the name itself comes in**, unless it is already there. -/
theorem names_upsert {change : Entry → Entry} {fresh : Entry}
    (keepsName : ∀ entry, entry.symbol.name = name → (change entry).symbol.name = name)
    (freshName : fresh.symbol.name = name) :
    (builder.upsert name change fresh).names = addName builder.names name := by
  unfold upsert addName
  by_cases known : name ∈ builder.names
  · rw [if_pos (find?_isSome_iff.mpr known), if_pos (by simpa using known), names, List.map_map]
    refine List.map_congr_left fun entry _ => ?_
    simp only [Function.comp]
    split
    · rename_i named
      rw [keepsName entry (eq_of_beq named), eq_of_beq named]
    · rfl
  · rw [if_neg (mt find?_isSome_iff.mp known), if_neg (by simpa using known), names,
      List.map_append, List.map_singleton, freshName]
    rfl

theorem names_defineAs {address : UInt32} {absolute : Bool}
    (defined : builder.defineAs name address absolute = .ok next) :
    next.names = addName builder.names name := by
  unfold defineAs at defined
  split at defined
  · cases defined
  · cases defined
    exact names_upsert (fun _ named => named) rfl

theorem names_publish (builder : Builder) (name : String) :
    (builder.publish name).names = addName builder.names name :=
  names_upsert (fun _ named => named) rfl

/-! ### Symbols put in one after another -/

/-- The builder in which some symbols were put. -/
def ofList (symbols : List Symbol) : Builder :=
  ⟨symbols.map fun symbol => ⟨symbol, true⟩⟩

theorem find?_ofList (symbols : List Symbol) (name : String) :
    (ofList symbols).find? name =
      (symbols.find? fun symbol => symbol.name == name).map fun symbol => ⟨symbol, true⟩ := by
  rw [find?, ofList, List.find?_map]
  rfl

theorem isDefined_ofList {symbols : List Symbol} {name : String} :
    (ofList symbols).isDefined name = true ↔ name ∈ symbols.map Symbol.name := by
  rw [isDefined, find?_ofList, List.mem_map]
  cases found : symbols.find? fun symbol => symbol.name == name with
  | none =>
    have absent := List.find?_eq_none.mp found
    simp only [beq_iff_eq] at absent
    simp only [Option.map_none, Option.any_none, Bool.false_eq_true, false_iff, not_exists, not_and]
    exact absent
  | some symbol =>
    simp only [Option.map_some, Option.any_some, true_iff]
    exact ⟨symbol, List.mem_of_find?_eq_some found, by simpa using List.find?_some found⟩

theorem build_ofList (symbols : List Symbol) : (ofList symbols).build = ⟨symbols⟩ := by
  rw [build, ofList, List.map_map]
  exact congrArg SymbolTable.mk (List.map_id _)

/-- **A symbol with a new name comes last, and an old name is refused.** -/
theorem insert_ofList (symbols : List Symbol) (symbol : Symbol) :
    (ofList symbols).insert symbol =
      if symbol.name ∈ symbols.map Symbol.name then .error (.duplicate symbol.name)
      else .ok (ofList (symbols ++ [symbol])) := by
  unfold insert
  by_cases known : symbol.name ∈ symbols.map Symbol.name
  · rw [if_pos known, if_pos (isDefined_ofList.mpr known)]
  · have absent : (ofList symbols).find? symbol.name = none := by
      rw [find?_ofList, Option.map_eq_none_iff, List.find?_eq_none]
      intro other member same
      exact known (List.mem_map.mpr ⟨other, member, by simpa using same⟩)
    rw [if_neg known, if_neg (mt isDefined_ofList.mp known), upsert, absent,
      if_neg (by simp only [Option.isSome_none, Bool.false_eq_true, not_false_eq_true])]
    simp only [ofList, List.map_append, List.map_cons, List.map_nil]

end Sicxe.SymbolTable.Builder
