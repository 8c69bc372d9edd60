import Sicxe.Proofs.Assembly.Names

/-!
# What the lines of a program declare

A line may define its label, and it may list names in its operand: `EXTDEF` exports them, `EXTREF`
imports them. The symbols and the imports of a placement are told by its lines.

* `Placing.place_adds`: the names that one statement adds.
* `Placing.Accounted`: the names of a program are those that its lines declare, which every
  statement keeps.
* `Placement.mem_imports_iff`: the imports are the names that `EXTREF` lines list.
* `Placement.get?_of_import`: an import is not defined in the program. It is in the symbol table
  only if an `EXTDEF` line lists it too, and then it is the place held for a definition that never
  comes.
-/

namespace Sicxe

/-- Whether a command gives its label an address or a value. -/
def Command.definesLabel : Command → Bool
  | .directive .END | .directive .EXTDEF | .directive .EXTREF => false
  | _ => true

namespace Statement

/-- The name that a statement defines, if any. -/
def definedNames (statement : Statement) : List String :=
  if statement.command.definesLabel then statement.label.toList else []

/-- The names between the commas of the operand. -/
def listedNames (statement : Statement) : List String :=
  ((statement.operand.getD "").toList.splitOn ',').map String.ofList

/-- The names that an `EXTDEF` statement lists. -/
def exportedNames (statement : Statement) : List String :=
  if statement.command = .directive .EXTDEF then statement.listedNames else []

/-- The names that an `EXTREF` statement lists. -/
def importedNames (statement : Statement) : List String :=
  if statement.command = .directive .EXTREF then statement.listedNames else []

end Statement

/-- The statement on a line. -/
def PlacedLine.statement (placed : PlacedLine) : Statement :=
  ⟨placed.label, placed.command, placed.operand⟩

namespace Placement

/-- The names that the lines of a program define. -/
def definedNames (placement : Placement) : List String :=
  placement.lines.flatMap fun line => line.statement.definedNames

/-- The names that the `EXTDEF` lines of a program list. -/
def exportedNames (placement : Placement) : List String :=
  placement.lines.flatMap fun line => line.statement.exportedNames

/-- The names that the `EXTREF` lines of a program list. -/
def importedNames (placement : Placement) : List String :=
  placement.lines.flatMap fun line => line.statement.importedNames

end Placement

namespace Placing

variable {placing middle next : Placing} {line : Nat} {first : Bool} {statement : Statement}
variable {defined exported imported : List String}

/-! ### The names that a statement adds -/

/-- The names that come in from one program to the next. -/
structure Adds (placing : Placing) (defined exported imported : List String) (next : Placing) :
    Prop where
  defined_iff : ∀ name, next.symbols.isDefined name = true ↔
    placing.symbols.isDefined name = true ∨ name ∈ defined
  known_iff : ∀ name, name ∈ next.symbols.names ↔
    name ∈ placing.symbols.names ∨ name ∈ defined ∨ name ∈ exported
  imported_iff : ∀ name, name ∈ next.imports ↔ name ∈ placing.imports ∨ name ∈ imported

namespace Adds

/-- Nothing comes in where symbols and imports stay. -/
theorem of_same (symbols : next.symbols = placing.symbols)
    (imports : next.imports = placing.imports) : Adds placing [] [] [] next := by
  refine ⟨fun name => ?_, fun name => ?_, fun name => ?_⟩
  · simp only [symbols, List.not_mem_nil, or_false]
  · simp only [symbols, List.not_mem_nil, or_false]
  · simp only [imports, List.not_mem_nil, or_false]

theorem followed (adds : Adds placing defined exported imported middle)
    (symbols : next.symbols = middle.symbols) (imports : next.imports = middle.imports) :
    Adds placing defined exported imported next := by
  refine ⟨?_, ?_, ?_⟩
  · rw [symbols]
    exact adds.defined_iff
  · rw [symbols]
    exact adds.known_iff
  · rw [imports]
    exact adds.imported_iff

/-- A definition adds its name. -/
theorem of_defineAs {name : String} {address : UInt32} {absolute : Bool}
    {symbols : SymbolTable.Builder}
    (define : placing.symbols.defineAs name address absolute = .ok symbols) :
    Adds placing [name] [] [] { placing with symbols } := by
  refine ⟨fun other => ?_, fun other => ?_, fun other => ?_⟩
  · rw [List.mem_singleton]
    exact SymbolTable.Builder.isDefined_defineAs other define
  · rw [SymbolTable.Builder.names_defineAs define, mem_addName]
    simp only [List.mem_singleton, List.not_mem_nil, or_false]
  · simp only [List.not_mem_nil, or_false]

/-- A definition that is exported at once adds its name. -/
theorem of_defineExported {name : String} {address : UInt32} {symbols : SymbolTable.Builder}
    (succeeded : placing.symbols.defineExported name address = .ok symbols) :
    Adds placing [name] [] [] { placing with symbols } := by
  obtain ⟨middle, define, rfl⟩ := map_eq_ok_iff.mp succeeded
  have adds := of_defineAs define
  refine ⟨fun other => ?_, fun other => ?_, adds.imported_iff⟩
  · rw [SymbolTable.Builder.isDefined_publish]
    exact adds.defined_iff other
  · rw [SymbolTable.Builder.names_publish, mem_addName, SymbolTable.Builder.names_defineAs define,
      mem_addName]
    simp only [List.mem_singleton, List.not_mem_nil, or_false, or_assoc, or_self]

/-- Exports, one after another, add their names. -/
theorem of_exports {names : List (List Char)}
    (succeeded : names.foldlM exportName placing = .ok next) :
    Adds placing [] (names.map String.ofList) [] next := by
  induction names generalizing placing with
  | nil =>
    rw [foldlM_nil_eq_ok_iff] at succeeded
    subst succeeded
    exact of_same rfl rfl
  | cons name rest ih =>
    obtain ⟨middle, head, tail⟩ := foldlM_cons_eq_ok_iff.mp succeeded
    obtain ⟨_, rfl⟩ := exportName_cases head
    have later := ih tail
    refine ⟨fun other => ?_, fun other => ?_, later.imported_iff⟩
    · rw [later.defined_iff, SymbolTable.Builder.isDefined_publish]
    · rw [later.known_iff, SymbolTable.Builder.names_publish, mem_addName, List.map_cons,
        List.mem_cons]
      simp only [List.not_mem_nil, false_or, or_assoc]

/-- Imports, one after another, add their names. -/
theorem of_imports {names : List (List Char)}
    (succeeded : names.foldlM importName placing = .ok next) :
    Adds placing [] [] (names.map String.ofList) next := by
  induction names generalizing placing with
  | nil =>
    rw [foldlM_nil_eq_ok_iff] at succeeded
    subst succeeded
    exact of_same rfl rfl
  | cons name rest ih =>
    obtain ⟨middle, head, tail⟩ := foldlM_cons_eq_ok_iff.mp succeeded
    obtain ⟨_, _, rfl⟩ := importName_cases head
    have later := ih tail
    refine ⟨later.defined_iff, later.known_iff, fun other => ?_⟩
    rw [later.imported_iff, mem_addName, List.map_cons, List.mem_cons, or_assoc]

end Adds

theorem defineLabel_adds (succeeded : placing.defineLabel statement = .ok next) :
    Adds placing statement.label.toList [] [] next := by
  obtain ⟨unlabelled, rfl⟩ | ⟨label, symbols, isLabel, _, define, rfl⟩ :=
    defineLabel_cases succeeded
  · rw [unlabelled]
    exact .of_same rfl rfl
  · rw [isLabel]
    exact .of_defineAs define

theorem Adds.reserve {size : Nat} (adds : Adds placing defined exported imported middle)
    (succeeded : middle.reserve line statement size = .ok next) :
    Adds placing defined exported imported next := by
  obtain ⟨_, rfl⟩ := checkCounter_eq_ok_iff.mp succeeded
  exact adds.followed rfl rfl

theorem Adds.flush (adds : Adds placing defined exported imported middle)
    (succeeded : middle.flush line statement = .ok next) :
    Adds placing defined exported imported next := by
  obtain ⟨_, _, _, _, rfl⟩ := flush_cases succeeded
  exact adds.followed rfl rfl

theorem placeStart_adds (succeeded : placing.placeStart line first statement = .ok next) :
    Adds placing statement.label.toList [] [] next := by
  obtain ⟨_, start, _, ⟨unlabelled, rfl⟩ | ⟨label, symbols, isLabel, define, rfl⟩⟩ :=
    placeStart_cases succeeded
  · rw [unlabelled]
    exact .of_same rfl rfl
  · rw [isLabel]
    exact (Adds.of_defineExported define).followed rfl rfl

theorem placeReserve_adds {unit : Nat}
    (succeeded : placing.placeReserve line statement unit = .ok next) :
    Adds placing statement.label.toList [] [] next := by
  obtain ⟨labelled, _, define, _, _, _, succeeded⟩ := placeReserve_cases succeeded
  exact (defineLabel_adds define).reserve succeeded

theorem placeEqual_adds (succeeded : placing.placeEqual line statement = .ok next) :
    Adds placing statement.label.toList [] [] next := by
  obtain ⟨label, _, symbols, isLabel, _, _, _, _, define, rfl⟩ := placeEqual_cases succeeded
  rw [isLabel]
  exact (Adds.of_defineAs define).followed rfl rfl

theorem placeOperation_adds {found : Operation} {extended : Bool}
    (succeeded : placing.placeOperation line statement found extended = .ok next) :
    Adds placing statement.label.toList [] [] next := by
  obtain ⟨labelled, first, succeeded⟩ := bind_eq_ok_iff.mp succeeded
  obtain ⟨pooled, second, reserved⟩ := bind_eq_ok_iff.mp succeeded
  have adds := defineLabel_adds first
  obtain ⟨literal, _, rfl⟩ | ⟨_, rfl⟩ := addLiteral_cases second
  · refine Adds.reserve ?_ reserved
    exact adds.followed rfl rfl
  · exact adds.reserve reserved

/-- **A statement adds the names that it declares.** -/
theorem place_adds (succeeded : placing.place line first statement = .ok next) :
    Adds placing statement.definedNames statement.exportedNames statement.importedNames next := by
  unfold place at succeeded
  dsimp only at succeeded
  split at succeeded
  all_goals
    rename_i command
    simp only [Statement.definedNames, Statement.exportedNames, Statement.importedNames, command,
      Command.definesLabel, if_true, Command.directive.injEq, reduceCtorEq, if_false,
      Bool.false_eq_true]
  · exact placeStart_adds succeeded
  · exact (Adds.of_same rfl rfl).flush succeeded
  · obtain ⟨middle, published, succeeded⟩ := bind_eq_ok_iff.mp succeeded
    exact (Adds.of_exports published).reserve succeeded
  · obtain ⟨middle, brought, succeeded⟩ := bind_eq_ok_iff.mp succeeded
    exact (Adds.of_imports brought).reserve succeeded
  · exact placeEqual_adds succeeded
  · obtain ⟨middle, labelled, succeeded⟩ := bind_eq_ok_iff.mp succeeded
    exact (defineLabel_adds labelled).flush succeeded
  · obtain ⟨middle, labelled, succeeded⟩ := bind_eq_ok_iff.mp succeeded
    exact (defineLabel_adds labelled).reserve succeeded
  · obtain ⟨middle, labelled, succeeded⟩ := bind_eq_ok_iff.mp succeeded
    exact (defineLabel_adds labelled).reserve succeeded
  · obtain ⟨middle, labelled, succeeded⟩ := bind_eq_ok_iff.mp succeeded
    exact (defineLabel_adds labelled).reserve succeeded
  · obtain ⟨middle, labelled, succeeded⟩ := bind_eq_ok_iff.mp succeeded
    obtain ⟨bytes, _, succeeded⟩ := bind_eq_ok_iff.mp succeeded
    exact (defineLabel_adds labelled).reserve succeeded
  · exact placeReserve_adds succeeded
  · exact placeReserve_adds succeeded
  · exact placeOperation_adds succeeded

/-! ### The names that the lines account for -/

/-- The line of a statement comes last, but for the literals that it flushes. -/
theorem Placed.lines_eq (placed : Placed placing line first statement next) :
    ∃ address size pool, next.lines.toList = placing.lines.toList ++
        ⟨line, statement.label, statement.command, statement.operand, address, size⟩ :: pool ∧
      (∀ other ∈ pool, ∃ text literal, Literal.parse text = .ok literal ∧
        other = LiteralPool.dataLine text other.address literal.size) ∧
      (statement.command ≠ .directive .START → address = placing.counter) := by
  cases placed with
  | start isStart =>
    exact ⟨_, _, [], lines_push _ _ _ _, fun _ member => (by cases member),
      fun isOther => absurd isStart isOther⟩
  | startNamed isStart =>
    exact ⟨_, _, [], lines_push _ _ _ _, fun _ member => (by cases member),
      fun isOther => absurd isStart isOther⟩
  | @reserve declared size _ declaration =>
    obtain ⟨_, _, counter, lines⟩ := declaration.keeps
    refine ⟨declared.counter, size, [], ?_, fun _ member => (by cases member), fun _ => counter⟩
    rw [lines_push, lines]
  | @flush declared _ _ declaration placed =>
    subst placed
    obtain ⟨_, _, counter, lines⟩ := declaration.keeps
    refine ⟨declared.counter, 0, (declared.pool.flush declared.counter).lines, ?_,
      LiteralPool.of_mem_flushEntries, fun _ => counter⟩
    simp only [lines_pool, lines, List.append_assoc, List.singleton_append]

/-- **Where a line comes from**: it was there before, it is the line of the statement, or it holds a
literal. -/
theorem Placed.of_mem_lines (placed : Placed placing line first statement next)
    {other : PlacedLine} (member : other ∈ next.lines.toList) :
    other ∈ placing.lines.toList ∨
      (other.line = line ∧ other.statement = statement ∧
        (statement.command ≠ .directive .START → other.address = placing.counter)) ∨
      ∃ text address size, other = LiteralPool.dataLine text address size := by
  obtain ⟨address, size, pool, lines, literals, here⟩ := placed.lines_eq
  rw [lines, List.mem_append, List.mem_cons] at member
  rcases member with old | rfl | pooled
  · exact .inl old
  · exact .inr (.inl ⟨rfl, rfl, here⟩)
  · obtain ⟨text, literal, _, isData⟩ := literals other pooled
    exact .inr (.inr ⟨text, other.address, literal.size, isData⟩)

/-- The line of a literal declares nothing. -/
theorem declares_dataLine (text : String) (address size : Nat) :
    (LiteralPool.dataLine text address size).statement.definedNames = [] ∧
      (LiteralPool.dataLine text address size).statement.exportedNames = [] ∧
      (LiteralPool.dataLine text address size).statement.importedNames = [] := by
  unfold LiteralPool.dataLine LiteralPool.data
  dsimp only
  split <;> exact ⟨rfl, rfl, rfl⟩

/-- The symbols and the imports are those that the lines declare. -/
structure Accounted (placing : Placing) : Prop where
  defined_iff : ∀ name, placing.symbols.isDefined name = true ↔
    name ∈ placing.lines.toList.flatMap fun line => line.statement.definedNames
  known_iff : ∀ name, name ∈ placing.symbols.names ↔
    (name ∈ placing.lines.toList.flatMap fun line => line.statement.definedNames) ∨
      name ∈ placing.lines.toList.flatMap fun line => line.statement.exportedNames
  imported_iff : ∀ name, name ∈ placing.imports ↔
    name ∈ placing.lines.toList.flatMap fun line => line.statement.importedNames

theorem accounted_empty : Accounted {} :=
  ⟨fun _ => by simp [SymbolTable.Builder.isDefined, SymbolTable.Builder.find?],
    fun _ => by simp [SymbolTable.Builder.names], fun _ => by simp⟩

/-- **A statement keeps account of the names.** -/
theorem Accounted.place (accounted : placing.Accounted)
    (succeeded : placing.place line first statement = .ok next) : next.Accounted := by
  have adds := place_adds succeeded
  obtain ⟨address, size, pool, lines, literals, _⟩ := (place_cases succeeded).lines_eq
  have silent : ∀ other ∈ pool, other.statement.definedNames = [] ∧
      other.statement.exportedNames = [] ∧ other.statement.importedNames = [] := by
    intro other member
    obtain ⟨text, literal, _, same⟩ := literals other member
    rw [same]
    exact declares_dataLine _ _ _
  have defined : (pool.flatMap fun line => line.statement.definedNames) = [] :=
    List.flatMap_eq_nil_iff.mpr fun other member => (silent other member).1
  have exported : (pool.flatMap fun line => line.statement.exportedNames) = [] :=
    List.flatMap_eq_nil_iff.mpr fun other member => (silent other member).2.1
  have imported : (pool.flatMap fun line => line.statement.importedNames) = [] :=
    List.flatMap_eq_nil_iff.mpr fun other member => (silent other member).2.2
  refine ⟨fun name => ?_, fun name => ?_, fun name => ?_⟩
  · rw [adds.defined_iff, accounted.defined_iff, lines, List.flatMap_append, List.flatMap_cons,
      defined, List.append_nil, List.mem_append]
    rfl
  · rw [adds.known_iff, accounted.known_iff, lines, List.flatMap_append, List.flatMap_cons,
      defined, List.append_nil, List.mem_append, List.flatMap_append, List.flatMap_cons, exported,
      List.append_nil, List.mem_append]
    exact or_or_or_comm
  · rw [adds.imported_iff, accounted.imported_iff, lines, List.flatMap_append, List.flatMap_cons,
      imported, List.append_nil, List.mem_append]
    rfl

/-! ### Imports against definitions -/

/-- No import is defined, and a name without a definition is exported and stays at address 0. -/
structure Apart (placing : Placing) : Prop where
  imports : ∀ name ∈ placing.imports, placing.symbols.isDefined name = false
  held : ∀ name entry, placing.symbols.find? name = some entry → entry.defined = false →
    entry = ⟨⟨name, 0, true, false⟩, false⟩

/-- A definition of a name that is not imported keeps imports and definitions apart. -/
theorem Apart.define {label : String} {address : UInt32} {absolute : Bool}
    {symbols : SymbolTable.Builder} (apart : placing.Apart)
    (own : placing.imports.contains label = false)
    (defined : placing.symbols.defineAs label address absolute = .ok symbols) :
    Apart { placing with symbols } := by
  refine ⟨fun name isImport => ?_, fun name entry found undefined => ?_⟩
  · refine Bool.eq_false_iff.mpr fun isDefined => ?_
    rcases (SymbolTable.Builder.isDefined_defineAs name defined).mp isDefined with before | rfl
    · exact absurd before (Bool.eq_false_iff.mp (apart.imports name isImport))
    · have listed : placing.imports.contains name = true := List.contains_iff_mem.mpr isImport
      rw [own] at listed
      cases listed
  · rw [(SymbolTable.Builder.find?_defineAs name defined).2] at found
    split at found
    · cases found
      cases undefined
    · exact apart.held name entry found undefined

theorem Apart.publish (apart : placing.Apart) (label : String) :
    Apart { placing with symbols := placing.symbols.publish label } := by
  refine ⟨fun name isImport => ?_, fun name entry found undefined => ?_⟩
  · rw [SymbolTable.Builder.isDefined_publish]
    exact apart.imports name isImport
  · rw [SymbolTable.Builder.find?_publish] at found
    split at found
    · rename_i same
      subst same
      cases known : placing.symbols.find? name with
      | none =>
        rw [known] at found
        cases found
        rfl
      | some old =>
        rw [known] at found
        cases found
        rw [apart.held name old known undefined]
        rfl
    · exact apart.held name entry found undefined

theorem Declared.apart (apart : placing.Apart) (declared : Declared statement placing next) :
    next.Apart := by
  induction declared with
  | refl => exact apart
  | define _ _ own defined ih => exact ih.define own defined
  | publish name _ _ ih => exact ih.publish name
  | importName name _ _ undefined ih =>
    refine ⟨fun other isImport => ?_, ih.held⟩
    rcases (mem_addName _ _ _).mp isImport with old | rfl
    · exact ih.imports other old
    · exact undefined
  | addLiteral _ _ ih => exact ⟨ih.imports, ih.held⟩

/-- **A statement keeps imports and definitions apart.** -/
theorem Placed.apart (fresh : first = true → placing = {}) (apart : placing.Apart)
    (placed : Placed placing line first statement next) : next.Apart := by
  cases placed with
  | start => exact ⟨apart.imports, apart.held⟩
  | startNamed _ isFirst _ _ defined =>
    -- Nothing is imported before the first statement.
    cases fresh isFirst
    obtain ⟨middle, define, rfl⟩ := map_eq_ok_iff.mp defined
    have published := (apart.define rfl define).publish
    exact ⟨(published _).imports, (published _).held⟩
  | reserve _ declaration =>
    have declared := declaration.apart apart
    exact ⟨declared.imports, declared.held⟩
  | flush _ declaration =>
    have declared := declaration.apart apart
    exact ⟨declared.imports, declared.held⟩

end Placing

namespace Placement

variable {source name : String} {placement : Placement}

/-- A finished placement comes from a program whose lines account for its names. -/
theorem ofSource_accounted (succeeded : ofSource source = .ok placement) :
    ∃ placing : Placing, (placing.Accounted ∧ placing.Apart) ∧
      placement = placing.finish (Text.stringLines source) :=
  ofSource_induction
    ⟨Placing.accounted_empty, ⟨fun _ member => (by cases member), fun _ _ found => by cases found⟩⟩
    (fun fresh holds _ _ placed =>
      ⟨holds.1.place placed, (Placing.place_cases placed).apart fresh holds.2⟩) succeeded

/-- **The imports of a program are the names that its `EXTREF` lines list.** -/
theorem mem_imports_iff (succeeded : ofSource source = .ok placement) :
    name ∈ placement.imports ↔ name ∈ placement.importedNames := by
  obtain ⟨placing, ⟨accounted, _⟩, rfl⟩ := ofSource_accounted succeeded
  exact accounted.imported_iff name

/-- **A name is a symbol of the program if a line defines it or an `EXTDEF` line lists it.** -/
theorem mem_symbols_iff (succeeded : ofSource source = .ok placement) :
    name ∈ placement.symbols.names ↔
      name ∈ placement.definedNames ∨ name ∈ placement.exportedNames := by
  obtain ⟨placing, ⟨accounted, _⟩, rfl⟩ := ofSource_accounted succeeded
  have names : placing.symbols.build.names = placing.symbols.names :=
    SymbolTable.Builder.names_build placing.symbols
  show name ∈ placing.symbols.build.names ↔ _
  rw [names]
  exact accounted.known_iff name

/-- **An import is not defined in the program.** -/
theorem not_mem_definedNames (succeeded : ofSource source = .ok placement)
    (isImport : name ∈ placement.imports) : name ∉ placement.definedNames := by
  obtain ⟨placing, ⟨accounted, apart⟩, rfl⟩ := ofSource_accounted succeeded
  exact fun isDefined => absurd ((accounted.defined_iff name).mpr isDefined)
    (Bool.eq_false_iff.mp (apart.imports name isImport))

/-- **The symbol of an import is the place held for its definition**, if an `EXTDEF` line lists
it. -/
theorem get?_of_import (succeeded : ofSource source = .ok placement)
    (isImport : name ∈ placement.imports) :
    placement.symbols.get? name =
      if name ∈ placement.exportedNames then some ⟨name, 0, true, false⟩ else none := by
  have known : name ∈ placement.symbols.names ↔ _ := mem_symbols_iff succeeded
  simp only [not_mem_definedNames succeeded isImport, false_or] at known
  obtain ⟨placing, ⟨_, apart⟩, rfl⟩ := ofSource_accounted succeeded
  have undefined : placing.symbols.isDefined name = false := apart.imports name isImport
  have symbol : placing.symbols.build.get? name = (placing.symbols.find? name).map _ :=
    SymbolTable.Builder.get?_build placing.symbols name
  have names : name ∈ placing.symbols.build.names ↔ (placing.symbols.find? name).isSome := by
    rw [SymbolTable.Builder.find?_isSome_iff]
    exact iff_of_eq (congrArg (name ∈ ·) (SymbolTable.Builder.names_build placing.symbols))
  show placing.symbols.build.get? name = _
  rw [symbol]
  cases found : placing.symbols.find? name with
  | none =>
    rw [if_neg]
    · rfl
    · rw [← known]
      show name ∉ placing.symbols.build.names
      simp [names, found]
  | some entry =>
    have isHeld : entry.defined = false := by
      simpa [SymbolTable.Builder.isDefined, found] using undefined
    rw [if_pos, apart.held name entry found isHeld]
    · rfl
    · rw [← known]
      show name ∈ placing.symbols.build.names
      simp [names, found]

end Placement

end Sicxe
