import Sicxe.Assembly.Placement
import Sicxe.Proofs.Success

/-!
# What placing a statement does

* `Placing.defineLabel_cases`, `Placing.flush_cases` and their like say what each part of a
  statement does when it succeeds.
* `Placing.Declared` lists what a statement can declare before it takes its place.
* `Placing.place_cases`: a statement starts the program, or it declares something and reserves
  bytes, or it declares something and flushes the literals.
* `Placing.Pending`, `Placing.Advances`: the programs that placing comes through, one statement
  after another, and `Placing.placeLines_eq_ok_iff`: placing succeeds by coming to an `END`.
* `Placement.ofSource_induction`: what holds at the beginning and is kept by every statement holds
  of a finished placement, and `Placement.ofSource_ends` says that an `END` comes last.
-/

namespace Sicxe

/-- The size of a line is what its command and operand take. -/
def PlacedLine.Sized (placed : PlacedLine) : Prop :=
  match placed.command with
  | .operation found extended => placed.size = found.length extended
  | .directive .WORD => placed.size = 3
  | .directive .BYTE =>
    ∃ bytes, readBytes (placed.operand.getD "").toList = .ok bytes ∧ placed.size = bytes.length
  | .directive _ => True

/-- The operand of a memory reference is a literal. -/
def Operation.UsesLiteral (found : Operation) (operand : Option String) (literal : String) :
    Prop :=
  found.operand = .memory ∧ ∃ text memory, operand = some text ∧
    MemoryOperand.parse text = .ok memory ∧ memory.target = .literal literal

namespace Placing

variable {placing middle next : Placing} {line : Nat} {first : Bool} {statement : Statement}

/-! ### What the parts of a statement do -/

theorem liftSymbol_eq_ok_iff {α : Type} {outcome : Except SymbolError α} {result : α} :
    liftSymbol outcome = .ok result ↔ outcome = .ok result := by
  cases outcome with
  | ok value =>
    rw [liftSymbol]
    exact ⟨fun same => congrArg _ (Except.ok.inj same), fun same => congrArg _ (Except.ok.inj same)⟩
  | error error =>
    rw [liftSymbol]
    simp only [reduceCtorEq]

theorem checkCounter_eq_ok_iff :
    placing.checkCounter = .ok next ↔ placing.counter ≤ maxAddress ∧ placing = next := by
  unfold checkCounter
  split
  · simp only [reduceCtorEq, false_iff, not_and]
    omega
  · rename_i bounded
    exact ⟨fun same => ⟨Nat.le_of_not_lt bounded, Except.ok.inj same⟩,
      fun same => congrArg _ same.2⟩

theorem defineLabel_cases (succeeded : placing.defineLabel statement = .ok next) :
    (statement.label = none ∧ next = placing) ∨
      ∃ label symbols, statement.label = some label ∧ placing.imports.contains label = false ∧
        placing.symbols.define label (UInt32.ofNat placing.counter) = .ok symbols ∧
        next = { placing with symbols } := by
  unfold defineLabel at succeeded
  split at succeeded
  · rename_i unlabelled
    cases succeeded
    exact .inl ⟨unlabelled, rfl⟩
  · rename_i label isLabel
    split at succeeded
    · cases succeeded
    · rename_i own
      obtain ⟨symbols, defined, same⟩ := bind_eq_ok_iff.mp succeeded
      cases same
      exact .inr ⟨label, symbols, isLabel, Bool.eq_false_iff.mpr own,
        liftSymbol_eq_ok_iff.mp defined, rfl⟩

theorem importName_cases {name : List Char} (succeeded : placing.importName name = .ok next) :
    isIdentifier name = true ∧ placing.symbols.isDefined (String.ofList name) = false ∧
      next = { placing with imports := addName placing.imports (String.ofList name) } := by
  unfold importName at succeeded
  dsimp only at succeeded
  split at succeeded
  · cases succeeded
  · rename_i isName
    split at succeeded
    · cases succeeded
    · rename_i undefined
      cases succeeded
      exact ⟨by simpa using isName, Bool.eq_false_iff.mpr undefined, rfl⟩

theorem exportName_cases {name : List Char} (succeeded : placing.exportName name = .ok next) :
    isIdentifier name = true ∧
      next = { placing with symbols := placing.symbols.publish (String.ofList name) } := by
  unfold exportName at succeeded
  dsimp only at succeeded
  split at succeeded
  · cases succeeded
  · rename_i isName
    cases succeeded
    exact ⟨by simpa using isName, rfl⟩

theorem defineEqual_cases {label operand : String}
    (succeeded : placing.defineEqual label operand = .ok next) :
    ∃ value symbols, placing.eval operand = .ok value ∧ value.isLocal = true ∧
      (value.isAbsolute = true → 0 ≤ value.constant ∧ value.constant ≤ 0xFFFFFF) ∧
      placing.imports.contains label = false ∧
      placing.symbols.defineAs label (UInt32.ofInt value.constant) value.isAbsolute =
        .ok symbols ∧
      next = { placing with symbols } := by
  obtain ⟨value, evaluated, succeeded⟩ := bind_eq_ok_iff.mp succeeded
  split at succeeded
  · cases succeeded
  · rename_i own
    have own : placing.imports.contains label = false := Bool.eq_false_iff.mpr own
    by_cases isConstant : value.isAbsolute = true
    · rw [if_pos isConstant] at succeeded
      split at succeeded
      · cases succeeded
      · rename_i inRange
        obtain ⟨symbols, defined, same⟩ := bind_eq_ok_iff.mp succeeded
        cases same
        have isLocal : value.isLocal = true := by
          simp only [Value.isAbsolute, Bool.and_eq_true] at isConstant
          simp only [Value.isLocal, isConstant, Bool.true_or, Bool.and_self]
        refine ⟨value, symbols, evaluated, isLocal, fun _ => by omega, own, ?_, rfl⟩
        rw [isConstant]
        exact liftSymbol_eq_ok_iff.mp defined
    · rw [if_neg isConstant] at succeeded
      split at succeeded
      · rename_i isAddress
        obtain ⟨symbols, defined, same⟩ := bind_eq_ok_iff.mp succeeded
        cases same
        have isLocal : value.isLocal = true := by
          simp [Value.isLocal, isAddress.1, isAddress.2]
        refine ⟨value, symbols, evaluated, isLocal, fun absolute => absurd absolute isConstant,
          own, ?_, rfl⟩
        rw [Bool.eq_false_iff.mpr isConstant]
        exact liftSymbol_eq_ok_iff.mp defined
      · cases succeeded

theorem addLiteral_cases {found : Operation} {operand : Option String}
    (succeeded : placing.addLiteral found operand = .ok next) :
    (∃ literal, found.UsesLiteral operand literal ∧
        next = { placing with pool := placing.pool.add literal }) ∨
      (∀ literal, ¬ found.UsesLiteral operand literal) ∧ next = placing := by
  unfold addLiteral at succeeded
  split at succeeded
  · cases succeeded
    refine .inr ⟨?_, rfl⟩
    rintro literal ⟨_, _, _, given, _⟩
    cases given
  · rename_i text
    split at succeeded
    · rename_i isMemory
      obtain ⟨operand, parsed, succeeded⟩ := bind_eq_ok_iff.mp succeeded
      split at succeeded
      · rename_i literal target
        cases succeeded
        exact .inl ⟨literal, ⟨isMemory, text, operand, rfl, parsed, target⟩, rfl⟩
      · rename_i target
        cases succeeded
        refine .inr ⟨?_, rfl⟩
        rintro literal ⟨_, _, _, ⟨⟩, again, isLiteral⟩
        cases parsed.symm.trans again
        cases target.symm.trans isLiteral
    · rename_i notMemory
      cases succeeded
      exact .inr ⟨fun _ uses => notMemory uses.1, rfl⟩

theorem flush_cases (succeeded : placing.flush line statement = .ok next) :
    ∃ flushed, placing.pool.flush placing.counter = flushed ∧ flushed.error = none ∧
      flushed.counter ≤ maxAddress ∧
      next = { placing.push line statement 0 with
        pool := ⟨flushed.entries⟩
        counter := flushed.counter
        lines := (placing.push line statement 0).lines.appendList flushed.lines } := by
  unfold flush at succeeded
  dsimp only at succeeded
  split at succeeded
  · cases succeeded
  · rename_i complete
    obtain ⟨bounded, rfl⟩ := checkCounter_eq_ok_iff.mp succeeded
    exact ⟨_, rfl, complete, bounded, rfl⟩

theorem placeStart_cases (succeeded : placing.placeStart line first statement = .ok next) :
    first = true ∧ ∃ start < maxAddress,
      (statement.label = none ∧
        next = { placing with start, counter := start }.push line statement 0) ∨
      ∃ label symbols, statement.label = some label ∧
        placing.symbols.defineExported label (UInt32.ofNat start) = .ok symbols ∧
        next = { placing with start, counter := start, name := label, symbols }.push line
          statement 0 := by
  unfold placeStart at succeeded
  split at succeeded
  · cases succeeded
  · rename_i isFirst
    obtain ⟨start, _, succeeded⟩ := bind_eq_ok_iff.mp succeeded
    split at succeeded
    · cases succeeded
    · rename_i inSpace
      refine ⟨by simpa using isFirst, start.toNat, by omega, ?_⟩
      split at succeeded
      · rename_i unlabelled
        obtain ⟨_, rfl⟩ := checkCounter_eq_ok_iff.mp succeeded
        exact .inl ⟨unlabelled, rfl⟩
      · rename_i label isLabel
        obtain ⟨symbols, defined, succeeded⟩ := bind_eq_ok_iff.mp succeeded
        obtain ⟨_, rfl⟩ := checkCounter_eq_ok_iff.mp succeeded
        exact .inr ⟨label, symbols, isLabel, liftSymbol_eq_ok_iff.mp defined, rfl⟩

theorem placeReserve_cases {unit : Nat}
    (succeeded : placing.placeReserve line statement unit = .ok next) :
    ∃ labelled count, placing.defineLabel statement = .ok labelled ∧
      labelled.eval (statement.operand.getD "") = .ok count ∧ count.isAbsolute = true ∧
      0 ≤ count.constant ∧
      labelled.reserve line statement (count.constant.toNat * unit) = .ok next := by
  obtain ⟨labelled, define, succeeded⟩ := bind_eq_ok_iff.mp succeeded
  obtain ⟨count, evaluated, succeeded⟩ := bind_eq_ok_iff.mp succeeded
  split at succeeded
  · cases succeeded
  · rename_i isConstant
    split at succeeded
    · cases succeeded
    · rename_i inRange
      exact ⟨labelled, count, define, evaluated, by simpa using isConstant, by omega, succeeded⟩

/-- **An `EQU` gives its label the value of its operand in 32 bits**, a constant of 24 bits or an
address of the program. -/
theorem placeEqual_cases (succeeded : placing.placeEqual line statement = .ok next) :
    ∃ label value symbols, statement.label = some label ∧
      placing.eval (statement.operand.getD "") = .ok value ∧ value.isLocal = true ∧
      (value.isAbsolute = true → 0 ≤ value.constant ∧ value.constant ≤ 0xFFFFFF) ∧
      placing.imports.contains label = false ∧
      placing.symbols.defineAs label (UInt32.ofInt value.constant) value.isAbsolute =
        .ok symbols ∧
      next = { placing with symbols }.push line statement 0 := by
  unfold placeEqual at succeeded
  split at succeeded
  · cases succeeded
  · rename_i label isLabel
    obtain ⟨middle, define, same⟩ := bind_eq_ok_iff.mp succeeded
    cases same
    obtain ⟨value, symbols, evaluated, isLocal, inRange, own, defined, rfl⟩ :=
      defineEqual_cases define
    exact ⟨label, value, symbols, isLabel, evaluated, isLocal, inRange, own, defined, rfl⟩

/-! ### Declarations -/

/-- The program with some of what a statement declares, one after another: its label, exports,
imports and literals. -/
inductive Declared (statement : Statement) (placing : Placing) : Placing → Prop
  | refl : Declared statement placing placing
  | define {declared : Placing} {label : String} {address : UInt32} {absolute : Bool}
      {symbols : SymbolTable.Builder} (earlier : Declared statement placing declared)
      (isLabel : statement.label = some label) (own : declared.imports.contains label = false)
      (defined : declared.symbols.defineAs label address absolute = .ok symbols) :
      Declared statement placing { declared with symbols }
  | publish {declared : Placing} (name : String) (earlier : Declared statement placing declared)
      (isName : isIdentifier name.toList = true) :
      Declared statement placing { declared with symbols := declared.symbols.publish name }
  | importName {declared : Placing} (name : String) (earlier : Declared statement placing declared)
      (isName : isIdentifier name.toList = true)
      (undefined : declared.symbols.isDefined name = false) :
      Declared statement placing { declared with imports := addName declared.imports name }
  | addLiteral {declared : Placing} (literal : String)
      (earlier : Declared statement placing declared) :
      Declared statement placing { declared with pool := declared.pool.add literal }

namespace Declared

theorem trans (first : Declared statement placing middle)
    (second : Declared statement middle next) : Declared statement placing next := by
  induction second with
  | refl => exact first
  | define _ isLabel own defined ih => exact .define ih isLabel own defined
  | publish name _ isName ih => exact .publish name ih isName
  | importName name _ isName undefined ih => exact .importName name ih isName undefined
  | addLiteral literal _ ih => exact .addLiteral literal ih

/-- **A declaration places nothing.** -/
theorem keeps (declared : Declared statement placing next) :
    next.name = placing.name ∧ next.start = placing.start ∧ next.counter = placing.counter ∧
      next.lines = placing.lines := by
  induction declared with
  | refl => exact ⟨rfl, rfl, rfl, rfl⟩
  | define _ _ _ _ ih => exact ih
  | publish _ _ _ ih => exact ih
  | importName _ _ _ _ ih => exact ih
  | addLiteral _ _ ih => exact ih

theorem of_foldlM {names : List (List Char)}
    {step : Placing → List Char → Except AssemblyError Placing}
    (one : ∀ {placing next : Placing} {name : List Char},
      step placing name = .ok next → Declared statement placing next)
    (succeeded : names.foldlM step placing = .ok next) : Declared statement placing next := by
  induction names generalizing placing with
  | nil =>
    rw [foldlM_nil_eq_ok_iff.mp succeeded]
    exact .refl
  | cons name rest ih =>
    obtain ⟨middle, head, tail⟩ := foldlM_cons_eq_ok_iff.mp succeeded
    exact (one head).trans (ih tail)

end Declared

theorem defineLabel_declared (succeeded : placing.defineLabel statement = .ok next) :
    Declared statement placing next := by
  obtain ⟨_, rfl⟩ | ⟨label, symbols, isLabel, own, defined, rfl⟩ := defineLabel_cases succeeded
  · exact .refl
  · exact .define .refl isLabel own defined

theorem importName_declared {name : List Char} (succeeded : placing.importName name = .ok next) :
    Declared statement placing next := by
  obtain ⟨isName, undefined, rfl⟩ := importName_cases succeeded
  exact .importName _ .refl (by simpa using isName) undefined

theorem exportName_declared {name : List Char} (succeeded : placing.exportName name = .ok next) :
    Declared statement placing next := by
  obtain ⟨isName, rfl⟩ := exportName_cases succeeded
  exact .publish _ .refl (by simpa using isName)

theorem addLiteral_declared {found : Operation} {operand : Option String}
    (succeeded : placing.addLiteral found operand = .ok next) :
    Declared statement placing next := by
  obtain ⟨literal, _, rfl⟩ | ⟨_, rfl⟩ := addLiteral_cases succeeded
  · exact .addLiteral _ .refl
  · exact .refl

/-! ### Taking a place -/

/-- What placing a statement comes to. -/
inductive Placed (placing : Placing) (line : Nat) (first : Bool) (statement : Statement) :
    Placing → Prop
  | start {start : Nat} (isStart : statement.command = .directive .START) (isFirst : first = true)
      (bounded : start < maxAddress) (unnamed : statement.label = none) :
      Placed placing line first statement
        ({ placing with start, counter := start }.push line statement 0)
  | startNamed {start : Nat} {label : String} {symbols : SymbolTable.Builder}
      (isStart : statement.command = .directive .START) (isFirst : first = true)
      (bounded : start < maxAddress) (named : statement.label = some label)
      (defined : placing.symbols.defineExported label (UInt32.ofNat start) = .ok symbols) :
      Placed placing line first statement
        ({ placing with start, counter := start, name := label, symbols }.push line statement 0)
  | reserve {declared : Placing} {size : Nat} (isOther : statement.command ≠ .directive .START)
      (declaration : Declared statement placing declared)
      (sized : PlacedLine.Sized
        ⟨line, statement.label, statement.command, statement.operand, declared.counter, size⟩)
      (bounded : size = 0 ∨ declared.counter + size ≤ maxAddress) :
      Placed placing line first statement (declared.push line statement size)
  | flush {declared : Placing} {flushed : LiteralPool.Flushed}
      (isFlush : statement.command = .directive .LTORG ∨ statement.command = .directive .END)
      (declaration : Declared statement placing declared)
      (placed : declared.pool.flush declared.counter = flushed) (complete : flushed.error = none)
      (bounded : flushed.counter ≤ maxAddress) :
      Placed placing line first statement
        { declared.push line statement 0 with
          pool := ⟨flushed.entries⟩
          counter := flushed.counter
          lines := (declared.push line statement 0).lines.appendList flushed.lines }

theorem reserve_placed {size : Nat} (isOther : statement.command ≠ .directive .START)
    (declaration : Declared statement placing middle)
    (sized : PlacedLine.Sized
      ⟨line, statement.label, statement.command, statement.operand, middle.counter, size⟩)
    (succeeded : middle.reserve line statement size = .ok next) :
    Placed placing line first statement next := by
  obtain ⟨bounded, rfl⟩ := checkCounter_eq_ok_iff.mp succeeded
  exact .reserve isOther declaration sized (Or.inr bounded)

theorem flush_placed
    (isFlush : statement.command = .directive .LTORG ∨ statement.command = .directive .END)
    (declaration : Declared statement placing middle)
    (succeeded : middle.flush line statement = .ok next) :
    Placed placing line first statement next := by
  obtain ⟨flushed, placed, complete, bounded, rfl⟩ := flush_cases succeeded
  exact .flush isFlush declaration placed complete bounded

theorem placeStart_placed (isStart : statement.command = .directive .START)
    (succeeded : placing.placeStart line first statement = .ok next) :
    Placed placing line first statement next := by
  obtain ⟨isFirst, start, bounded, ⟨unnamed, rfl⟩ | ⟨label, symbols, named, defined, rfl⟩⟩ :=
    placeStart_cases succeeded
  · exact .start isStart isFirst bounded unnamed
  · exact .startNamed isStart isFirst bounded named defined

theorem placeReserve_placed {unit : Nat} {found : Directive}
    (command : statement.command = .directive found)
    (unsized : found = .RESB ∨ found = .RESW)
    (succeeded : placing.placeReserve line statement unit = .ok next) :
    Placed placing line first statement next := by
  obtain ⟨labelled, count, define, _, _, _, succeeded⟩ := placeReserve_cases succeeded
  refine reserve_placed ?_ (defineLabel_declared define) ?_ succeeded
  · rcases unsized with rfl | rfl <;> simp [command]
  · rcases unsized with rfl | rfl <;> simp [PlacedLine.Sized, command]

theorem placeEqual_placed (isEqual : statement.command = .directive .EQU)
    (succeeded : placing.placeEqual line statement = .ok next) :
    Placed placing line first statement next := by
  obtain ⟨label, value, symbols, isLabel, _, _, _, own, defined, rfl⟩ := placeEqual_cases succeeded
  exact .reserve (by simp [isEqual]) (.define .refl isLabel own defined)
    (by simp [PlacedLine.Sized, isEqual]) (Or.inl rfl)

theorem placeOperation_placed {found : Operation} {extended : Bool}
    (isOperation : statement.command = .operation found extended)
    (succeeded : placing.placeOperation line statement found extended = .ok next) :
    Placed placing line first statement next := by
  obtain ⟨labelled, first, succeeded⟩ := bind_eq_ok_iff.mp succeeded
  obtain ⟨pooled, second, succeeded⟩ := bind_eq_ok_iff.mp succeeded
  exact reserve_placed (by simp [isOperation])
    ((defineLabel_declared first).trans (addLiteral_declared second))
    (by simp [PlacedLine.Sized, isOperation]) succeeded

/-- **A statement starts the program, or it declares something and reserves bytes, or it declares
something and flushes the literals.** -/
theorem place_cases (succeeded : placing.place line first statement = .ok next) :
    Placed placing line first statement next := by
  unfold place at succeeded
  dsimp only at succeeded
  split at succeeded
  · rename_i isStart
    exact placeStart_placed isStart succeeded
  · rename_i isEnd
    exact flush_placed (Or.inr isEnd) .refl succeeded
  · rename_i command
    obtain ⟨middle, published, succeeded⟩ := bind_eq_ok_iff.mp succeeded
    exact reserve_placed (by simp [command]) (.of_foldlM exportName_declared published)
      (by simp [PlacedLine.Sized, command]) succeeded
  · rename_i command
    obtain ⟨middle, imported, succeeded⟩ := bind_eq_ok_iff.mp succeeded
    exact reserve_placed (by simp [command]) (.of_foldlM importName_declared imported)
      (by simp [PlacedLine.Sized, command]) succeeded
  · rename_i isEqual
    exact placeEqual_placed isEqual succeeded
  · rename_i isPool
    obtain ⟨middle, labelled, succeeded⟩ := bind_eq_ok_iff.mp succeeded
    exact flush_placed (Or.inl isPool) (defineLabel_declared labelled) succeeded
  · rename_i command
    obtain ⟨middle, labelled, succeeded⟩ := bind_eq_ok_iff.mp succeeded
    exact reserve_placed (by simp [command]) (defineLabel_declared labelled)
      (by simp [PlacedLine.Sized, command]) succeeded
  · rename_i command
    obtain ⟨middle, labelled, succeeded⟩ := bind_eq_ok_iff.mp succeeded
    exact reserve_placed (by simp [command]) (defineLabel_declared labelled)
      (by simp [PlacedLine.Sized, command]) succeeded
  · rename_i command
    obtain ⟨middle, labelled, succeeded⟩ := bind_eq_ok_iff.mp succeeded
    exact reserve_placed (by simp [command]) (defineLabel_declared labelled)
      (by simp [PlacedLine.Sized, command]) succeeded
  · rename_i command
    obtain ⟨middle, labelled, succeeded⟩ := bind_eq_ok_iff.mp succeeded
    obtain ⟨bytes, read, succeeded⟩ := bind_eq_ok_iff.mp succeeded
    refine reserve_placed (by simp [command]) (defineLabel_declared labelled) ?_ succeeded
    simp only [PlacedLine.Sized, command]
    exact ⟨bytes, read, rfl⟩
  · rename_i command
    exact placeReserve_placed command (Or.inl rfl) succeeded
  · rename_i command
    exact placeReserve_placed command (Or.inr rfl) succeeded
  · rename_i isOperation
    exact placeOperation_placed isOperation succeeded

/-! ### The programs that placing comes through -/

/-- A program some of whose statements are placed, and the lines that are left. -/
structure Pending where
  placing : Placing
  /-- No statement was placed yet. -/
  first : Bool
  lines : List (String × Nat)

/-- Nothing of a source is placed yet. -/
def Pending.ofSource (source : String) : Pending :=
  ⟨{}, true, (Text.stringLines source).zipIdx 1⟩

/-- Placing comes from one program to another. Lines without a statement are passed over, and an
`END` is not passed. -/
inductive Advances (start : Pending) : Pending → Prop
  | refl : Advances start start
  | blank {placing : Placing} {first : Bool} {text : String} {number : Nat}
      {rest : List (String × Nat)}
      (earlier : Advances start ⟨placing, first, (text, number) :: rest⟩)
      (parsed : Statement.parse text = .ok none) : Advances start ⟨placing, first, rest⟩
  | place {placing next : Placing} {first : Bool} {text : String} {number : Nat}
      {rest : List (String × Nat)} {statement : Statement}
      (earlier : Advances start ⟨placing, first, (text, number) :: rest⟩)
      (parsed : Statement.parse text = .ok (some statement))
      (goesOn : statement.command ≠ .directive .END)
      (placed : placing.place number first statement = .ok next) :
      Advances start ⟨next, false, rest⟩

namespace Advances

variable {start pending later : Pending}

theorem trans (earlier : Advances start pending) (advances : Advances pending later) :
    Advances start later := by
  induction advances with
  | refl => exact earlier
  | blank _ parsed ih => exact .blank ih parsed
  | place _ parsed goesOn placed ih => exact .place ih parsed goesOn placed

/-- What is placed in the end is the same from each of the programs. -/
theorem placeLines_eq (advances : Advances start pending) :
    start.placing.placeLines start.first start.lines =
      pending.placing.placeLines pending.first pending.lines := by
  induction advances with
  | refl => rfl
  | blank _ parsed ih =>
    rw [ih, placeLines]
    simp only [parsed]
  | place _ parsed goesOn placed ih =>
    rw [ih, placeLines]
    simp only [parsed, placed, goesOn, if_false]

end Advances

/-- **Placing succeeds exactly by coming to an `END` that can be placed.** -/
theorem placeLines_eq_ok_iff {final : Placing} {lines : List (String × Nat)} :
    placing.placeLines first lines = .ok (some final) ↔
      ∃ (last : Placing) (only : Bool) (text : String) (number : Nat)
        (rest : List (String × Nat)) (statement : Statement),
        Advances ⟨placing, first, lines⟩ ⟨last, only, (text, number) :: rest⟩ ∧
          Statement.parse text = .ok (some statement) ∧ statement.command = .directive .END ∧
          last.place number only statement = .ok final := by
  constructor
  · intro succeeded
    induction lines generalizing placing first with
    | nil => cases succeeded
    | cons head rest ih =>
      obtain ⟨text, number⟩ := head
      -- The line is passed over, or its statement is placed and may be the `END`.
      unfold placeLines at succeeded
      split at succeeded
      · cases succeeded
      · rename_i parsed
        obtain ⟨last, only, text, number, rest, statement, advances, found⟩ := ih succeeded
        exact ⟨last, only, text, number, rest, statement,
          (Advances.refl.blank parsed).trans advances, found⟩
      · rename_i statement parsed
        split at succeeded
        · cases succeeded
        · rename_i next placed
          split at succeeded
          · rename_i isEnd
            cases succeeded
            exact ⟨placing, first, text, number, rest, statement, .refl, parsed, isEnd, placed⟩
          · rename_i goesOn
            obtain ⟨last, only, text, number, rest, statement, advances, found⟩ := ih succeeded
            exact ⟨last, only, text, number, rest, statement,
              (Advances.refl.place parsed goesOn placed).trans advances, found⟩
  · rintro ⟨last, only, text, number, rest, statement, advances, parsed, isEnd, placed⟩
    rw [advances.placeLines_eq, placeLines]
    simp only [parsed, placed, isEnd, if_true]

/-! ### All statements -/

/-- What holds at the beginning and is kept by every statement but the `END` holds on the way. Only
the first statement meets a program in which nothing is placed. -/
theorem Advances.holds {motive : Placing → Prop} {start pending : Pending}
    (step : ∀ {placing next : Placing} {text : String} {line : Nat} {first : Bool}
      {statement : Statement}, (first = true → placing = {}) → motive placing →
      (text, line) ∈ start.lines → Statement.parse text = .ok (some statement) →
      statement.command ≠ .directive .END → placing.place line first statement = .ok next →
      motive next)
    (fresh : start.first = true → start.placing = {}) (initial : motive start.placing)
    (advances : Advances start pending) :
    (pending.first = true → pending.placing = {}) ∧ motive pending.placing ∧
      pending.lines ⊆ start.lines := by
  induction advances with
  | refl => exact ⟨fresh, initial, List.Subset.refl _⟩
  | blank _ _ ih =>
    obtain ⟨freshLater, holds, member⟩ := ih
    exact ⟨freshLater, holds, List.Subset.trans (List.subset_cons_self _ _) member⟩
  | place _ parsed goesOn placed ih =>
    obtain ⟨freshLater, holds, member⟩ := ih
    exact ⟨nofun, step freshLater holds (member List.mem_cons_self) parsed goesOn placed,
      List.Subset.trans (List.subset_cons_self _ _) member⟩

/-- **The last statement of placed lines is an `END`**, and what holds at the beginning and is kept
by every other statement holds before it. -/
theorem placeLines_ends {motive : Placing → Prop} {lines : List (String × Nat)}
    (step : ∀ {placing next : Placing} {text : String} {line : Nat} {first : Bool}
      {statement : Statement}, (first = true → placing = {}) → motive placing →
      (text, line) ∈ lines → Statement.parse text = .ok (some statement) →
      statement.command ≠ .directive .END → placing.place line first statement = .ok next →
      motive next)
    (fresh : first = true → placing = {}) (holds : motive placing)
    (succeeded : placing.placeLines first lines = .ok (some next)) :
    ∃ (earlier : Placing) (text : String) (line : Nat) (only : Bool) (statement : Statement),
      (only = true → earlier = {}) ∧ motive earlier ∧ (text, line) ∈ lines ∧
      Statement.parse text = .ok (some statement) ∧ statement.command = .directive .END ∧
      earlier.place line only statement = .ok next := by
  obtain ⟨last, only, text, line, rest, statement, advances, parsed, isEnd, placed⟩ :=
    placeLines_eq_ok_iff.mp succeeded
  obtain ⟨freshLast, holdsLast, member⟩ := advances.holds step fresh holds
  exact ⟨last, text, line, only, statement, freshLast, holdsLast, member List.mem_cons_self, parsed,
    isEnd, placed⟩

/-- **What holds at the beginning and is kept by every statement holds at the end.** -/
theorem placeLines_induction {motive : Placing → Prop} {lines : List (String × Nat)}
    (step : ∀ {placing next : Placing} {text : String} {line : Nat} {first : Bool}
      {statement : Statement}, (first = true → placing = {}) → motive placing →
      (text, line) ∈ lines → Statement.parse text = .ok (some statement) →
      placing.place line first statement = .ok next → motive next)
    (fresh : first = true → placing = {}) (holds : motive placing)
    (succeeded : placing.placeLines first lines = .ok (some next)) : motive next := by
  obtain ⟨earlier, text, line, only, statement, freshLast, holdsLast, member, parsed, _, last⟩ :=
    placeLines_ends (fun fresh holds member parsed _ placed => step fresh holds member parsed placed)
      fresh holds succeeded
  exact step freshLast holdsLast member parsed last

end Placing

namespace Placement

variable {motive : Placing → Prop} {text : String} {placement : Placement}

/-- A finished placement is reached by placing the lines of its source. -/
theorem ofSource_placeLines (succeeded : ofSource text = .ok placement) :
    ∃ placing : Placing,
      ({} : Placing).placeLines true ((Text.stringLines text).zipIdx 1) = .ok (some placing) ∧
        placement = placing.finish (Text.stringLines text) := by
  unfold ofSource at succeeded
  dsimp only at succeeded
  split at succeeded
  · cases succeeded
  · cases succeeded
  · rename_i placing placed
    cases succeeded
    exact ⟨placing, placed, rfl⟩

/-- **What holds at the beginning and is kept by every statement holds of the finished
placement.** -/
theorem ofSource_induction (initial : motive {})
    (step : ∀ {placing next : Placing} {content : String} {line : Nat} {first : Bool}
      {statement : Statement}, (first = true → placing = {}) → motive placing →
      (content, line) ∈ (Text.stringLines text).zipIdx 1 →
      Statement.parse content = .ok (some statement) →
      placing.place line first statement = .ok next → motive next)
    (succeeded : ofSource text = .ok placement) :
    ∃ placing, motive placing ∧ placement = placing.finish (Text.stringLines text) := by
  obtain ⟨placing, placed, finished⟩ := ofSource_placeLines succeeded
  exact ⟨placing, Placing.placeLines_induction step (fun _ => rfl) initial placed, finished⟩

/-- **A finished placement is reached by an `END`**, and what holds at the beginning and is kept by
every other statement holds before it. -/
theorem ofSource_ends (initial : motive {})
    (step : ∀ {placing next : Placing} {content : String} {line : Nat} {first : Bool}
      {statement : Statement}, (first = true → placing = {}) → motive placing →
      (content, line) ∈ (Text.stringLines text).zipIdx 1 →
      Statement.parse content = .ok (some statement) → statement.command ≠ .directive .END →
      placing.place line first statement = .ok next → motive next)
    (succeeded : ofSource text = .ok placement) :
    ∃ (earlier placing : Placing) (content : String) (line : Nat) (first : Bool)
      (statement : Statement), motive earlier ∧
      (content, line) ∈ (Text.stringLines text).zipIdx 1 ∧
      statement.command = .directive .END ∧ earlier.place line first statement = .ok placing ∧
      placement = placing.finish (Text.stringLines text) := by
  obtain ⟨placing, placed, finished⟩ := ofSource_placeLines succeeded
  obtain ⟨earlier, content, line, first, statement, _, holds, member, _, isEnd, last⟩ :=
    Placing.placeLines_ends step (fun _ => rfl) initial placed
  exact ⟨earlier, placing, content, line, first, statement, holds, member, isEnd, last, finished⟩

end Placement

end Sicxe
