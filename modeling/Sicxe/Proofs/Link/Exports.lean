import Sicxe.Link.Exports
import Sicxe.Proofs.Symbol.Builder
import Sicxe.Proofs.Symbol.Table

/-!
# The table of exports

* `PlacedObject.globals_eq_ok_iff`: the modules have a common table exactly when no name is
  exported twice, and it then lists their exports in order.
* `PlacedObject.checkResolved_eq_ok_iff`: every name is resolved when each module's references are
  in the table.
-/

namespace Sicxe

namespace PlacedObject

open SymbolTable

/-- Adding the exports of a module succeeds when all names stay different. -/
theorem addExports_eq_ok_iff {symbols : List Symbol} (unique : (symbols.map Symbol.name).Nodup)
    {placed : PlacedObject} {builder : Builder} :
    addExports (Builder.ofList symbols) placed = .ok builder ↔
      ((symbols ++ placed.exports).map Symbol.name).Nodup ∧
        builder = Builder.ofList (symbols ++ placed.exports) := by
  unfold addExports
  generalize placed.exports = exports
  induction exports generalizing symbols with
  | nil =>
    rw [foldlM_nil_eq_ok_iff, List.append_nil]
    exact ⟨fun same => ⟨unique, same.symm⟩, fun same => same.2.symm⟩
  | cons symbol rest ih =>
    rw [foldlM_cons_eq_ok_iff]
    simp only [Builder.insert_ofList]
    by_cases known : symbol.name ∈ symbols.map Symbol.name
    · rw [if_pos known]
      constructor
      · rintro ⟨_, impossible, _⟩
        cases impossible
      · rintro ⟨nodup, _⟩
        rw [List.map_append, List.map_cons] at nodup
        exact absurd known
          (fun inSymbols => (List.nodup_append.mp nodup).2.2 _ inSymbols _ List.mem_cons_self rfl)
    · have extended : ((symbols ++ [symbol]).map Symbol.name).Nodup := by
        rw [List.map_append, List.map_cons, List.map_nil, List.nodup_append]
        refine ⟨unique, List.nodup_singleton _, fun name member other only same => ?_⟩
        rw [List.mem_singleton.mp only] at same
        exact known (same ▸ member)
      rw [if_neg known]
      simp only [Except.ok.injEq, exists_eq_left', ih extended, List.append_assoc,
        List.singleton_append]

/-- Adding the exports of several modules succeeds when all names stay different. -/
theorem foldlM_addExports_eq_ok_iff (modules : List PlacedObject) {symbols : List Symbol}
    (unique : (symbols.map Symbol.name).Nodup) {builder : Builder} :
    modules.foldlM addExports (Builder.ofList symbols) = .ok builder ↔
      ((symbols ++ modules.flatMap exports).map Symbol.name).Nodup ∧
        builder = Builder.ofList (symbols ++ modules.flatMap exports) := by
  induction modules generalizing symbols with
  | nil =>
    rw [foldlM_nil_eq_ok_iff, List.flatMap_nil, List.append_nil]
    exact ⟨fun same => ⟨unique, same.symm⟩, fun same => same.2.symm⟩
  | cons placed rest ih =>
    rw [foldlM_cons_eq_ok_iff, List.flatMap_cons, ← List.append_assoc]
    simp only [addExports_eq_ok_iff unique]
    constructor
    · rintro ⟨_, ⟨extended, rfl⟩, succeeded⟩
      exact (ih extended).mp succeeded
    · intro result
      have extended : ((symbols ++ placed.exports).map Symbol.name).Nodup := by
        have nodup := result.1
        rw [List.map_append] at nodup
        exact (List.nodup_append.mp nodup).1
      exact ⟨_, ⟨extended, rfl⟩, (ih extended).mpr result⟩

/-- **Modules have a common table exactly when no name is exported twice**; it lists their exports
in order. -/
theorem globals_eq_ok_iff {modules : List PlacedObject} {table : SymbolTable} :
    globals modules = .ok table ↔
      ((modules.flatMap exports).map Symbol.name).Nodup ∧ table = ⟨modules.flatMap exports⟩ := by
  have whole : ∀ builder, modules.foldlM addExports {} = .ok builder ↔
      ((modules.flatMap exports).map Symbol.name).Nodup ∧
        builder = Builder.ofList (modules.flatMap exports) :=
    fun builder => foldlM_addExports_eq_ok_iff modules
      (show (([] : List Symbol).map Symbol.name).Nodup from List.nodup_nil)
  unfold globals
  cases result : modules.foldlM addExports {} with
  | ok builder =>
    obtain ⟨unique, rfl⟩ := (whole builder).mp result
    simp only [unique, true_and, Except.ok.injEq, Builder.build_ofList]
    exact eq_comm
  | error error =>
    simp only [reduceCtorEq, false_iff, not_and]
    intro unique
    have impossible := (whole _).mpr ⟨unique, rfl⟩
    rw [result] at impossible
    cases impossible

/-- **Every name is resolved when each module's references are in the table.** -/
theorem checkResolved_eq_ok_iff {table : SymbolTable} {modules : List PlacedObject} :
    checkResolved table modules = .ok () ↔
      ∀ placed ∈ modules, ∀ name ∈ placed.references, table.contains name = true := by
  have unresolved : firstUnresolved? table modules = none ↔
      ∀ placed ∈ modules, ∀ name ∈ placed.references, table.contains name = true := by
    simp only [firstUnresolved?, List.findSome?_eq_none_iff, Option.map_eq_none_iff,
      List.find?_eq_none, Bool.not_eq_true', Bool.not_eq_false]
  rw [← unresolved, checkResolved]
  cases firstUnresolved? table modules with
  | none => simp only
  | some missing => simp only [reduceCtorEq]

end PlacedObject

end Sicxe
