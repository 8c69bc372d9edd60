import Sicxe.Assembly.Constant
import Sicxe.Instruction.Basic

/-!
# Operands

* A memory operand is an expression or a literal, with `#` for immediate and `@` for indirect
  addressing in front or `,X` for indexing behind.
* A register operand gives the two half bytes of a two-byte instruction.
-/

namespace Sicxe

/-- What a memory operand refers to. -/
inductive Target where
  | expression (expr : Expr)
  /-- The text of a literal, `=` included. -/
  | literal (text : String)
  deriving DecidableEq, Repr

/-- The operand of a memory reference. -/
structure MemoryOperand where
  mode : Addressing
  target : Target
  indexed : Bool
  deriving DecidableEq, Repr

namespace MemoryOperand

/-- The addressing mode that a text begins with, and the text without its mark. -/
def splitMode : List Char → Addressing × List Char
  | '#' :: rest => (.immediate, rest)
  | '@' :: rest => (.indirect, rest)
  | text => (.simple, text)

/-- Whether a text ends in the mark of indexing, and the text without it. -/
def splitIndex (text : List Char) : Bool × List Char :=
  match text.reverse with
  | 'X' :: ',' :: rest | 'x' :: ',' :: rest => (true, rest.reverse)
  | _ => (false, text)

/-- The memory operand that a text spells. Indexing and literals need simple addressing. -/
def parse (text : String) : Except AssemblyError MemoryOperand :=
  let (mode, marked) := splitMode text.toList
  let (indexed, body) := splitIndex marked
  if indexed && mode != .simple then
    .error .indexedIndirect
  else if body.head? = some '=' then
    if mode != .simple then
      .error (.unreadable text .literal)
    else
      let literal := String.ofList body
      (Literal.parse literal).map fun _ => ⟨mode, .literal literal, indexed⟩
  else
    (Expr.parse (String.ofList body)).map fun expr => ⟨mode, .expression expr, indexed⟩

end MemoryOperand

/-- The two half bytes of a two-byte instruction. -/
structure HalfBytes where
  first : Nat
  second : Nat
  deriving DecidableEq, Repr

namespace HalfBytes

/-- The number of the register that a text names. -/
def readRegister (text : List Char) : Except AssemblyError Nat :=
  match Register.parse? text with
  | some register => .ok register.number
  | none => .error (.unreadable (String.ofList text) .register)

/-- A number between two bounds. -/
def readCount (text : List Char) (least greatest : Int) : Except AssemblyError Nat :=
  match readInteger text with
  | .error error => .error error
  | .ok count =>
    if least ≤ count ∧ count ≤ greatest then .ok count.toNat else .error (.valueRange count 4)

/-- The texts before and after the first comma. -/
def splitPair (text : List Char) : Except AssemblyError (List Char × List Char) :=
  match text.dropWhile (· != ',') with
  | _ :: second => .ok (text.takeWhile (· != ','), second)
  | [] => .error (.unreadable (String.ofList text) .registerPair)

/-- The half bytes that an operand of some shape spells. A shift count from 1 to 16 is stored less
one. -/
def parse (shape : OperandShape) (operand : String) : Except AssemblyError HalfBytes :=
  let text := operand.toList
  match shape with
  | .register => do
    let register ← readRegister text
    return ⟨register, 0⟩
  | .registerPair => do
    let (first, second) ← splitPair text
    let first ← readRegister first
    let second ← readRegister second
    return ⟨first, second⟩
  | .registerCount => do
    let (register, count) ← splitPair text
    let register ← readRegister register
    let count ← readCount count 1 16
    return ⟨register, count - 1⟩
  | .count => do
    let count ← readCount text 0 15
    return ⟨count, 0⟩
  | .none | .memory => .error (.unreadable operand .register)

end HalfBytes

end Sicxe
