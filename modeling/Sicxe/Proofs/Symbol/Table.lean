import Mathlib.Data.List.Nodup
import Sicxe.Symbol.Basic

/-!
# Looking up symbols

* `SymbolTable.get?_eq_some_iff`, `SymbolTable.address?_eq_some_iff`: what a name finds that occurs
  once in a table.
* `SymbolTable.address?_perm`: what a name finds when the symbols stand in another order.
* `SymbolTable.get?_rebased`: what a name finds in the table of a moved program.
-/

namespace Sicxe

/-- Adding a name leaves every name once in the list. -/
theorem nodup_addName {names : List String} (unique : names.Nodup) (name : String) :
    (addName names name).Nodup := by
  unfold addName
  split
  · exact unique
  · rename_i isNew
    refine List.nodup_append.mpr ⟨unique, List.nodup_singleton _, ?_⟩
    rintro old known new only rfl
    rw [List.mem_singleton.mp only] at known
    exact isNew (by simpa using known)

namespace SymbolTable

/-- The names of a table. -/
def names (table : SymbolTable) : List String :=
  table.symbols.map Symbol.name

theorem contains_iff {table : SymbolTable} {name : String} :
    table.contains name = true ↔ name ∈ table.names := by
  rw [contains, get?, List.find?_isSome, names, List.mem_map]
  simp only [beq_iff_eq]

theorem contains_iff_address? {table : SymbolTable} {name : String} :
    table.contains name = true ↔ ∃ address, table.address? name = some address := by
  rw [contains, address?, Option.isSome_iff_exists]
  simp only [Option.map_eq_some_iff]
  constructor
  · rintro ⟨symbol, found⟩
    exact ⟨_, symbol, found, rfl⟩
  · rintro ⟨_, symbol, found, _⟩
    exact ⟨symbol, found⟩

/-- **The symbol of a name that occurs once in a table.** -/
theorem get?_eq_some_iff {table : SymbolTable} (unique : table.names.Nodup) {name : String}
    {symbol : Symbol} :
    table.get? name = some symbol ↔ symbol ∈ table.symbols ∧ symbol.name = name := by
  constructor
  · intro found
    exact ⟨List.mem_of_find?_eq_some found, by simpa using List.find?_some found⟩
  · rintro ⟨member, rfl⟩
    cases found : table.get? symbol.name with
    | none =>
      have absent := List.find?_eq_none.mp found symbol member
      simp at absent
    | some other =>
      have otherName : other.name = symbol.name := by simpa using List.find?_some found
      have otherMember := List.mem_of_find?_eq_some found
      rw [List.inj_on_of_nodup_map unique otherMember member otherName]

theorem address?_eq_some_iff {table : SymbolTable} (unique : table.names.Nodup) {name : String}
    {address : UInt32} :
    table.address? name = some address ↔
      ∃ symbol ∈ table.symbols, symbol.name = name ∧ symbol.address = address := by
  simp only [address?, Option.map_eq_some_iff, get?_eq_some_iff unique, and_assoc]

/-- **The order of the symbols does not matter to a table in which every name occurs once.** -/
theorem address?_perm {table other : SymbolTable} (unique : table.names.Nodup)
    (permuted : other.symbols.Perm table.symbols) : other.address? = table.address? := by
  have otherUnique : other.names.Nodup := (permuted.map Symbol.name).nodup_iff.mpr unique
  funext name
  ext address
  rw [address?_eq_some_iff unique, address?_eq_some_iff otherUnique]
  simp only [permuted.mem_iff]

/-! ### Moved tables -/

theorem names_rebased (table : SymbolTable) (origin target : UInt32) :
    (table.rebased origin target).names = table.names :=
  rebased_names table origin target

theorem name_rebased (symbol : Symbol) (origin target : UInt32) :
    (symbol.rebased origin target).name = symbol.name := by
  unfold Symbol.rebased
  split <;> rfl

/-- **A name finds its symbol moved with the program.** -/
theorem get?_rebased (table : SymbolTable) (origin target : UInt32) (name : String) :
    (table.rebased origin target).get? name =
      (table.get? name).map fun symbol => symbol.rebased origin target := by
  rw [get?, rebased, List.find?_map]
  have sameTest : ((fun symbol : Symbol => symbol.name == name) ∘ fun symbol =>
      symbol.rebased origin target) = fun symbol : Symbol => symbol.name == name := by
    funext symbol
    rw [Function.comp, name_rebased]
  rw [sameTest]
  rfl

end SymbolTable

end Sicxe
