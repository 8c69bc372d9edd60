import Sicxe.Proofs.Assembly.Declarations
import Sicxe.Proofs.Assembly.Expression

/-!
# What is known stays known

Placing more statements keeps the lines and the values of all defined names (`Placing.Extends`). So
an operand without an import that has a value among the first statements has the same value in the
finished placement (`Placing.Extends.eval`).
-/

namespace Sicxe

namespace Placing

variable {placing middle next : Placing} {line : Nat} {first : Bool} {statement : Statement}

/-- The lines and the values of the defined names stay. -/
structure Extends (placing final : Placing) : Prop where
  known : ∀ name symbol, placing.symbols.get? name = some symbol →
    ∃ later, final.symbols.get? name = some later ∧ Value.ofSymbol later = Value.ofSymbol symbol
  lines : ∀ line ∈ placing.lines.toList, line ∈ final.lines.toList

namespace Extends

theorem refl (placing : Placing) : placing.Extends placing :=
  ⟨fun _ symbol known => ⟨symbol, known, rfl⟩, fun _ member => member⟩

theorem trans (earlier : placing.Extends middle) (later : middle.Extends next) :
    placing.Extends next := by
  refine ⟨fun name symbol known => ?_,
    fun line member => later.lines line (earlier.lines line member)⟩
  obtain ⟨symbolMiddle, found, same⟩ := earlier.known name symbol known
  obtain ⟨symbolNext, foundNext, sameNext⟩ := later.known name symbolMiddle found
  exact ⟨symbolNext, foundNext, sameNext.trans same⟩

/-- A definition keeps what is defined. -/
theorem of_defineAs {name : String} {address : UInt32} {absolute : Bool}
    {symbols : SymbolTable.Builder}
    (defined : placing.symbols.defineAs name address absolute = .ok symbols) :
    placing.Extends { placing with symbols } :=
  ⟨fun _ symbol known => ⟨symbol, SymbolTable.Builder.get?_of_defineAs defined known, rfl⟩,
    fun _ member => member⟩

/-- An export keeps what is defined. -/
theorem of_publish (placing : Placing) (name : String) :
    placing.Extends { placing with symbols := placing.symbols.publish name } :=
  ⟨fun _ _ known => ⟨_, SymbolTable.Builder.get?_of_publish name known, rfl⟩,
    fun _ member => member⟩

end Extends

theorem Declared.extends (declared : Declared statement placing next) : placing.Extends next := by
  induction declared with
  | refl => exact .refl _
  | define _ _ _ defined ih => exact ih.trans (.of_defineAs defined)
  | publish name _ _ ih => exact ih.trans (.of_publish _ name)
  | importName _ _ _ _ ih => exact ⟨ih.known, ih.lines⟩
  | addLiteral _ _ ih => exact ⟨ih.known, ih.lines⟩

/-- **Placing a statement keeps what is known.** -/
theorem Placed.extends (placed : Placed placing line first statement next) :
    placing.Extends next := by
  have lines : ∀ other ∈ placing.lines.toList, other ∈ next.lines.toList := by
    intro other member
    obtain ⟨_, _, _, same, _⟩ := placed.lines_eq
    rw [same]
    exact List.mem_append_left _ member
  cases placed with
  | start => exact ⟨(Extends.refl placing).known, lines⟩
  | @startNamed _ label _ _ _ _ _ defined =>
    obtain ⟨middle, define, rfl⟩ := map_eq_ok_iff.mp defined
    have defined := (Extends.of_defineAs define).trans (.of_publish _ label)
    exact ⟨defined.known, lines⟩
  | reserve _ declaration => exact ⟨declaration.extends.known, lines⟩
  | flush _ declaration => exact ⟨declaration.extends.known, lines⟩

/-- **Placing statements keeps what is known.** -/
theorem placeLines_extends {statements : List (String × Nat)} (fresh : first = true → placing = {})
    (succeeded : placing.placeLines first statements = .ok (some next)) : placing.Extends next :=
  placeLines_induction
    (fun _ extended _ _ placed => extended.trans (place_cases placed).extends) fresh (.refl placing)
    succeeded

/-- **An operand without an import keeps its value.** -/
theorem Extends.eval {final : Placing} {text : String} {value : Value} {source : List String}
    (extended : placing.Extends final) (evaluated : placing.eval text = .ok value)
    (isLocal : value.external = none) :
    (final.finish source).eval text placing.counter = .ok value := by
  obtain ⟨expr, parsed, evaluated⟩ := bind_eq_ok_iff.mp evaluated
  refine bind_eq_ok_iff.mpr ⟨expr, parsed, Expr.eval_of_find ?_ isLocal evaluated⟩
  intro name known found knownLocal
  unfold Value.lookup at found
  split at found
  · rename_i symbol isSymbol
    cases found
    obtain ⟨later, isLater, same⟩ := extended.known name symbol isSymbol
    have inTable := SymbolTable.Builder.get?_build_of_get? isLater
    show Value.lookup final.symbols.build.get? final.imports name = _
    simp only [Value.lookup, inTable, same]
  · split at found
    · cases found
      cases knownLocal
    · cases found

end Placing

end Sicxe
