import Sicxe.Proofs.Assembly.Expression
import Sicxe.Proofs.Assembly.Module
import Sicxe.Proofs.Assembly.Statements
import Sicxe.Proofs.Symbol.Table

/-!
# The names of a program

Every name that a program declares is an identifier and is declared once, and its records refer to
names that it knows.

* `Placing.WellNamed`: what every statement keeps of the names, and `Placement.wellNamed` for a
  finished placement.
* `Placement.knownImport_of_targetValue`: an operand refers to imports of the program only.
* `Placement.Assembled.known`: a record of a module refers to one of its imports or to the program
  itself.
-/

namespace Sicxe

/-- A name as it can be written in a source. -/
def IsName (name : String) : Prop :=
  isIdentifier name.toList = true

/-- What every statement keeps of the names of a program. -/
structure Placing.WellNamed (placing : Placing) : Prop where
  program : placing.name = "" ∨ IsName placing.name
  symbols : ∀ name ∈ placing.symbols.names, IsName name
  distinctSymbols : placing.symbols.names.Nodup
  imports : ∀ name ∈ placing.imports, IsName name
  distinctImports : placing.imports.Nodup

namespace Placing

variable {placing next : Placing} {line : Nat} {first : Bool} {statement : Statement}

theorem isName_of_mem_addName {names : List String} {name : String}
    (all : ∀ other ∈ names, IsName other) (isName : IsName name) :
    ∀ other ∈ addName names name, IsName other := by
  intro other member
  rcases (mem_addName names name other).mp member with old | rfl
  · exact all other old
  · exact isName

/-- One more symbol with a name keeps the names. -/
theorem WellNamed.addSymbol {symbols : SymbolTable.Builder} {name : String}
    (named : placing.WellNamed) (isName : IsName name)
    (added : symbols.names = addName placing.symbols.names name) :
    WellNamed { placing with symbols } := by
  refine { named with symbols := ?_, distinctSymbols := ?_ }
  · rw [added]
    exact isName_of_mem_addName named.symbols isName
  · rw [added]
    exact nodup_addName named.distinctSymbols name

theorem Declared.wellNamed (labels : ∀ label, statement.label = some label → IsName label)
    (named : placing.WellNamed) (declared : Declared statement placing next) : next.WellNamed := by
  induction declared with
  | refl => exact named
  | define _ isLabel _ defined ih =>
    exact ih.addSymbol (labels _ isLabel) (SymbolTable.Builder.names_defineAs defined)
  | publish name _ isName ih =>
    exact ih.addSymbol isName (SymbolTable.Builder.names_publish _ name)
  | importName name _ isName _ ih =>
    exact { ih with
      imports := isName_of_mem_addName ih.imports isName
      distinctImports := nodup_addName ih.distinctImports name }
  | addLiteral _ _ ih => exact { ih with }

/-- **A statement keeps the names of the program.** -/
theorem Placed.wellNamed {text : String} (named : placing.WellNamed)
    (parsed : Statement.parse text = .ok (some statement))
    (placed : Placed placing line first statement next) : next.WellNamed := by
  have labels := (Statement.parse_cases parsed).1
  cases placed with
  | start => exact { named with }
  | @startNamed start label symbols _ _ _ isLabel defined =>
    obtain ⟨middle, define, rfl⟩ := map_eq_ok_iff.mp defined
    have isName : IsName label := labels label isLabel
    have defined := named.addSymbol isName (SymbolTable.Builder.names_defineAs define)
    have published := defined.addSymbol isName (SymbolTable.Builder.names_publish middle label)
    exact { published with program := Or.inr isName }
  | reserve _ declaration => exact { declaration.wellNamed labels named with }
  | flush _ declaration => exact { declaration.wellNamed labels named with }

end Placing

namespace Placement

variable {source text : String} {placement : Placement} {base : Option UInt32} {line : PlacedLine}
variable {encoded : EncodedLine} {here : Nat} {value : Value}

/-- **The names of a program are identifiers and declared once.** -/
theorem wellNamed (succeeded : ofSource source = .ok placement) :
    (placement.name = "" ∨ IsName placement.name) ∧
      (∀ name ∈ placement.symbols.names, IsName name) ∧ placement.symbols.names.Nodup ∧
      (∀ name ∈ placement.imports, IsName name) ∧ placement.imports.Nodup := by
  obtain ⟨placing, named, rfl⟩ := ofSource_induction (motive := Placing.WellNamed)
    ⟨Or.inl rfl, fun _ member => (by cases member), List.nodup_nil,
      fun _ member => (by cases member), List.nodup_nil⟩
    (fun _ named _ parsed placed => (Placing.place_cases placed).wellNamed named parsed) succeeded
  have names : placing.symbols.build.names = placing.symbols.names :=
    SymbolTable.Builder.names_build placing.symbols
  refine ⟨named.program, ?_, ?_, named.imports, named.distinctImports⟩
  · show ∀ name ∈ placing.symbols.build.names, IsName name
    rw [names]
    exact named.symbols
  · show placing.symbols.build.names.Nodup
    rw [names]
    exact named.distinctSymbols

/-! ### The imports in values -/

/-- The imports that a value is an offset from are imports of the program. -/
def KnownImport (placement : Placement) (value : Value) : Prop :=
  ∀ symbol, value.external = some symbol → symbol ∈ placement.imports

/-- The value of a term is an offset from an import only if the term names it. -/
theorem knownImport_of_term {term : Term}
    (evaluated : term.value here (Value.lookup placement.symbols.get? placement.imports) =
      .ok value) : placement.KnownImport value := by
  intro symbol isImport
  unfold Term.value at evaluated
  split at evaluated
  · cases evaluated
    cases isImport
  · cases evaluated
    cases isImport
  · split at evaluated
    · rename_i found
      cases evaluated
      unfold Value.lookup at found
      split at found
      · cases found
        unfold Value.ofSymbol at isImport
        split at isImport <;> cases isImport
      · split at found
        · rename_i imported
          cases found
          cases isImport
          simpa using imported
        · cases found
    · cases evaluated

/-- A sum is an offset from the imports of its terms only. -/
theorem knownImport_of_evalFrom {sum : Value} {summands : List Summand}
    (known : placement.KnownImport sum)
    (evaluated : Expr.evalFrom text here (Value.lookup placement.symbols.get? placement.imports) sum
      summands = .ok value) : placement.KnownImport value := by
  induction summands generalizing sum with
  | nil =>
    cases evaluated
    exact known
  | cons summand rest ih =>
    obtain ⟨found, next, isValue, added, evaluated⟩ := Expr.evalFrom_cons_eq_ok_iff.mp evaluated
    obtain ⟨_, rfl⟩ := Expr.addTo_cases added
    refine ih (fun symbol isImport => ?_) evaluated
    rcases Option.or_eq_some_iff.mp isImport with ofTerm | ⟨_, ofSum⟩
    · exact knownImport_of_term isValue symbol ofTerm
    · exact known symbol ofSum

theorem knownImport_of_evalExpr {expr : Expr}
    (evaluated : placement.evalExpr expr here = .ok value) : placement.KnownImport value :=
  knownImport_of_evalFrom (fun _ impossible => by cases impossible)
    (Expr.eval_eq_ok_iff.mp evaluated).1

/-- **An operand refers to imports of the program only.** -/
theorem knownImport_of_targetValue {target : Target}
    (evaluated : placement.targetValue target here = .ok value) : placement.KnownImport value := by
  unfold targetValue at evaluated
  split at evaluated
  · split at evaluated
    · cases evaluated
      exact fun _ impossible => by cases impossible
    · cases evaluated
  · exact knownImport_of_evalExpr evaluated

/-! ### The names in records -/

/-- A name that a record of the program may refer to: an import, or the program itself. -/
def Known (placement : Placement) (symbol : String) : Prop :=
  symbol ∈ placement.imports ∨ symbol = placement.name ∧ placement.name ≠ ""

theorem known_of_addressField {field : AddressField} (known : placement.KnownImport value)
    (holds : placement.addressField text value = .ok field) :
    ∀ symbol, field.symbol = some symbol → placement.Known symbol := by
  intro symbol isSymbol
  unfold addressField at holds
  split at holds
  · rename_i isImport
    cases holds
    cases isSymbol
    exact Or.inl (known symbol isImport)
  · split at holds
    · rename_i moves
      cases holds
      cases isSymbol
      exact Or.inr ⟨rfl, moves.2⟩
    · split at holds
      · cases holds
        cases isSymbol
      · cases holds

/-- **A record of a module refers to one of its imports or to the program itself.** -/
theorem Assembled.known {object : Object} {emitted : List EmittedLine} {record : Relocation}
    (assembled : placement.Assembled object emitted) (member : record ∈ object.relocations) :
    placement.Known record.symbol := by
  rw [assembled.relocations] at member
  obtain ⟨line, inEmitted, isRecord⟩ := List.mem_filterMap.mp member
  obtain ⟨_, encodes⟩ := assembled.emits.encodes_mem line inEmitted
  obtain ⟨_, _, _, _, evaluated, holds, isSymbol⟩ :=
    (encodeLine_origin encodes record isRecord).symbol
  exact known_of_addressField (knownImport_of_targetValue evaluated) holds _ isSymbol

end Placement

end Sicxe
