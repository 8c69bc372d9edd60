import Sicxe.Assembly.LiteralPool
import Sicxe.Assembly.Operand
import Sicxe.Symbol.Builder
import Sicxe.Text.Lines

/-!
# Placement

A placement gives every statement of a source its address and collects the symbols, imports and
literals of the program. Statements follow one another without gaps, and a literal pool puts its
lines right after the statement that flushes it.

* `Placing` is what is known after some of the statements; `Placing.place` adds one more.
* `Placement.ofSource` places the statements of a source up to its `END`.
-/

namespace Sicxe

/-- The end of the address space. -/
def maxAddress : Nat := 0x100000

/-- What a symbol is worth in an expression. -/
def Value.ofSymbol (symbol : Symbol) : Value :=
  if symbol.absolute then .absolute symbol.address.toNat else .address symbol.address.toNat

/-- The value of a name that is a symbol of the program or else one of its imports. -/
def Value.lookup (find : String → Option Symbol) (imports : List String) (name : String) :
    Option Value :=
  match find name with
  | some symbol => some (.ofSymbol symbol)
  | none => if imports.contains name then some (.imported name) else none

/-- The value of an operand on the line at address `here`. -/
def Value.ofText (text : String) (here : Nat) (lookup : String → Option Value) :
    Except AssemblyError Value := do
  let expr ← Expr.parse text
  expr.eval here lookup

/-- The statements of a source with their addresses. -/
structure Placement where
  /-- The label of `START`, empty if there is none. -/
  name : String
  start : Nat
  /-- The number of bytes of the program. -/
  length : Nat
  lines : List PlacedLine
  symbols : SymbolTable
  imports : List String
  /-- The literals by their texts. -/
  literals : List (String × Nat)
  source : List String
  deriving DecidableEq, Repr

/-- What is known about a program before its next statement. -/
structure Placing where
  name : String := ""
  start : Nat := 0
  /-- The address of the next statement. -/
  counter : Nat := 0
  symbols : SymbolTable.Builder := {}
  imports : List String := []
  pool : LiteralPool := {}
  lines : Array PlacedLine := #[]

namespace Placing

/-- A symbol error as an error of the assembler. -/
def liftSymbol {α : Type} : Except SymbolError α → Except AssemblyError α
  | .ok result => .ok result
  | .error error => .error (.symbol error)

/-- The value of an operand of the next statement, seen from the symbols known so far. -/
def eval (placing : Placing) (text : String) : Except AssemblyError Value :=
  Value.ofText text placing.counter (Value.lookup placing.symbols.get? placing.imports)

/-- The program with its address counter checked against the address space. -/
def checkCounter (placing : Placing) : Except AssemblyError Placing :=
  if maxAddress < placing.counter then .error (.addressOverflow placing.counter) else .ok placing

/-- Puts a statement at the address counter and reserves `size` bytes for it. -/
def push (placing : Placing) (line : Nat) (statement : Statement) (size : Nat) : Placing :=
  let placed : PlacedLine :=
    ⟨line, statement.label, statement.command, statement.operand, placing.counter, size⟩
  { placing with lines := placing.lines.push placed, counter := placing.counter + size }

/-- Puts a statement that takes `size` bytes. -/
def reserve (placing : Placing) (line : Nat) (statement : Statement) (size : Nat) :
    Except AssemblyError Placing :=
  (placing.push line statement size).checkCounter

/-- Puts a statement and the waiting literals behind it. -/
def flush (placing : Placing) (line : Nat) (statement : Statement) :
    Except AssemblyError Placing :=
  let placing := placing.push line statement 0
  let flushed := placing.pool.flush placing.counter
  match flushed.error with
  | some error => .error error
  | none =>
    checkCounter
      { placing with
        pool := ⟨flushed.entries⟩
        counter := flushed.counter
        lines := placing.lines.appendList flushed.lines }

/-- Defines the label of a statement at the address counter. -/
def defineLabel (placing : Placing) (statement : Statement) : Except AssemblyError Placing :=
  match statement.label with
  | none => .ok placing
  | some label =>
    if placing.imports.contains label then
      .error (.importConflict label)
    else do
      let symbols ← liftSymbol (placing.symbols.define label (UInt32.ofNat placing.counter))
      return { placing with symbols }

/-- Imports a name that is not defined in the program. -/
def importName (placing : Placing) (name : List Char) : Except AssemblyError Placing :=
  let text := String.ofList name
  if !isIdentifier name then .error (.invalidSymbol text)
  else if placing.symbols.isDefined text then .error (.importConflict text)
  else .ok { placing with imports := addName placing.imports text }

/-- Exports a name. -/
def exportName (placing : Placing) (name : List Char) : Except AssemblyError Placing :=
  let text := String.ofList name
  if !isIdentifier name then .error (.invalidSymbol text)
  else .ok { placing with symbols := placing.symbols.publish text }

/-- Places `START`, which sets the address of the program and may give it a name. -/
def placeStart (placing : Placing) (line : Nat) (first : Bool) (statement : Statement) :
    Except AssemblyError Placing := do
  if !first then
    .error .misplacedStart
  else
    let start ← readInteger (statement.operand.getD "").toList
    if start < 0 ∨ maxAddress ≤ start then
      .error (.valueRange start 20)
    else
      let placing := { placing with start := start.toNat, counter := start.toNat }
      match statement.label with
      | none => placing.reserve line statement 0
      | some label =>
        let symbols ←
          liftSymbol (placing.symbols.defineExported label (UInt32.ofNat placing.start))
        { placing with name := label, symbols }.reserve line statement 0

/-- Gives the label of `EQU` the value of its operand: a constant of 24 bits, or an address of
the program. -/
def defineEqual (placing : Placing) (label operand : String) :
    Except AssemblyError Placing := do
  let value ← placing.eval operand
  if placing.imports.contains label then
    .error (.importConflict label)
  else if value.isAbsolute then
    if value.constant < 0 ∨ 0xFFFFFF < value.constant then
      .error (.valueRange value.constant 24)
    else
      let symbols ←
        liftSymbol (placing.symbols.defineAbsolute label (UInt32.ofInt value.constant))
      return { placing with symbols }
  else if value.relative = 1 ∧ value.external = none then
    let symbols ← liftSymbol (placing.symbols.define label (UInt32.ofInt value.constant))
    return { placing with symbols }
  else
    .error (.badExpression operand)

/-- Places `EQU`. -/
def placeEqual (placing : Placing) (line : Nat) (statement : Statement) :
    Except AssemblyError Placing :=
  match statement.label with
  | none => .error (.missingLabel Directive.EQU.name)
  | some label => do
    let placing ← placing.defineEqual label (statement.operand.getD "")
    return placing.push line statement 0

/-- Places a statement that reserves as many units of `unit` bytes as its operand says. -/
def placeReserve (placing : Placing) (line : Nat) (statement : Statement) (unit : Nat) :
    Except AssemblyError Placing := do
  let operand := statement.operand.getD ""
  let placing ← placing.defineLabel statement
  let count ← placing.eval operand
  if !count.isAbsolute then
    .error (.badExpression operand)
  else if count.constant < 0 ∨ maxAddress ≤ count.constant then
    .error (.valueRange count.constant 20)
  else
    placing.reserve line statement (count.constant.toNat * unit)

/-- The pool with the literal that the operand of an operation may be. -/
def addLiteral (placing : Placing) (found : Operation) (operand : Option String) :
    Except AssemblyError Placing :=
  match operand with
  | none => .ok placing
  | some text =>
    if found.operand = .memory then do
      let operand ← MemoryOperand.parse text
      match operand.target with
      | .literal literal => return { placing with pool := placing.pool.add literal }
      | .expression _ => return placing
    else .ok placing

/-- Places an operation. -/
def placeOperation (placing : Placing) (line : Nat) (statement : Statement) (found : Operation)
    (extended : Bool) : Except AssemblyError Placing := do
  let placing ← placing.defineLabel statement
  let placing ← placing.addLiteral found statement.operand
  placing.reserve line statement (found.length extended)

/-- Places one more statement; `first` says that there was none before. -/
def place (placing : Placing) (line : Nat) (first : Bool) (statement : Statement) :
    Except AssemblyError Placing :=
  let operand := (statement.operand.getD "").toList
  match statement.command with
  | .directive .START => placing.placeStart line first statement
  | .directive .END => placing.flush line statement
  | .directive .EXTDEF => do
    let placing ← (operand.splitOn ',').foldlM exportName placing
    placing.reserve line statement 0
  | .directive .EXTREF => do
    let placing ← (operand.splitOn ',').foldlM importName placing
    placing.reserve line statement 0
  | .directive .EQU => placing.placeEqual line statement
  | .directive .LTORG => do
    let placing ← placing.defineLabel statement
    placing.flush line statement
  | .directive .BASE | .directive .NOBASE => do
    let placing ← placing.defineLabel statement
    placing.reserve line statement 0
  | .directive .WORD => do
    let placing ← placing.defineLabel statement
    placing.reserve line statement 3
  | .directive .BYTE => do
    let placing ← placing.defineLabel statement
    let bytes ← readBytes operand
    placing.reserve line statement bytes.length
  | .directive .RESB => placing.placeReserve line statement 1
  | .directive .RESW => placing.placeReserve line statement 3
  | .operation found extended => placing.placeOperation line statement found extended

/-- Places the statements of numbered lines up to `END`; none if the lines end without it. -/
def placeLines (placing : Placing) (first : Bool) :
    List (String × Nat) → Except Diagnostic (Option Placing)
  | [] => .ok none
  | (text, line) :: rest =>
    match Statement.parse text with
    | .error error => .error ⟨line, error⟩
    | .ok none => placeLines placing first rest
    | .ok (some statement) =>
      match placing.place line first statement with
      | .error error => .error ⟨line, error⟩
      | .ok placing =>
        if statement.command = .directive .END then .ok (some placing)
        else placeLines placing false rest

/-- The placement that is reached after the last statement. -/
def finish (placing : Placing) (source : List String) : Placement where
  name := placing.name
  start := placing.start
  length := placing.counter - placing.start
  lines := placing.lines.toList
  symbols := placing.symbols.build
  imports := placing.imports
  literals := placing.pool.addresses
  source := source

end Placing

/-- The placement of a source. -/
def Placement.ofSource (text : String) : Except Diagnostic Placement :=
  let source := Text.stringLines text
  match ({} : Placing).placeLines true (source.zipIdx 1) with
  | .error diagnostic => .error diagnostic
  | .ok none => .error ⟨source.length, .missingEnd⟩
  | .ok (some placing) => .ok (placing.finish source)

end Sicxe
