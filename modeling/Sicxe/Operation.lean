import Sicxe.Arithmetic
import Sicxe.Register

/-!
# Operations

The machine operations: for each mnemonic its opcode, the family of its encodings, the operand
that the assembler expects and what the machine does. `Operation.table` holds one row for each
mnemonic, in alphabetical order.
-/

namespace Sicxe

/-- The name of a machine operation. -/
inductive Mnemonic where
  | ADD
  | ADDF
  | ADDR
  | AND
  | CLEAR
  | COMP
  | COMPF
  | COMPR
  | DIV
  | DIVF
  | DIVR
  | FIX
  | FLOAT
  | HIO
  | J
  | JEQ
  | JGT
  | JLT
  | JSUB
  | LDA
  | LDB
  | LDCH
  | LDF
  | LDL
  | LDS
  | LDT
  | LDX
  | LPS
  | MUL
  | MULF
  | MULR
  | NORM
  | OR
  | RD
  | RMO
  | RSUB
  | SHIFTL
  | SHIFTR
  | SIO
  | SSK
  | STA
  | STB
  | STCH
  | STF
  | STI
  | STL
  | STS
  | STSW
  | STT
  | STX
  | SUB
  | SUBF
  | SUBR
  | SVC
  | TD
  | TIO
  | TIX
  | TIXR
  | WD
  deriving DecidableEq, Repr

namespace Mnemonic

/-- A mnemonic as it is written. -/
def name : Mnemonic → String
  | ADD => "ADD"
  | ADDF => "ADDF"
  | ADDR => "ADDR"
  | AND => "AND"
  | CLEAR => "CLEAR"
  | COMP => "COMP"
  | COMPF => "COMPF"
  | COMPR => "COMPR"
  | DIV => "DIV"
  | DIVF => "DIVF"
  | DIVR => "DIVR"
  | FIX => "FIX"
  | FLOAT => "FLOAT"
  | HIO => "HIO"
  | J => "J"
  | JEQ => "JEQ"
  | JGT => "JGT"
  | JLT => "JLT"
  | JSUB => "JSUB"
  | LDA => "LDA"
  | LDB => "LDB"
  | LDCH => "LDCH"
  | LDF => "LDF"
  | LDL => "LDL"
  | LDS => "LDS"
  | LDT => "LDT"
  | LDX => "LDX"
  | LPS => "LPS"
  | MUL => "MUL"
  | MULF => "MULF"
  | MULR => "MULR"
  | NORM => "NORM"
  | OR => "OR"
  | RD => "RD"
  | RMO => "RMO"
  | RSUB => "RSUB"
  | SHIFTL => "SHIFTL"
  | SHIFTR => "SHIFTR"
  | SIO => "SIO"
  | SSK => "SSK"
  | STA => "STA"
  | STB => "STB"
  | STCH => "STCH"
  | STF => "STF"
  | STI => "STI"
  | STL => "STL"
  | STS => "STS"
  | STSW => "STSW"
  | STT => "STT"
  | STX => "STX"
  | SUB => "SUB"
  | SUBF => "SUBF"
  | SUBR => "SUBR"
  | SVC => "SVC"
  | TD => "TD"
  | TIO => "TIO"
  | TIX => "TIX"
  | TIXR => "TIXR"
  | WD => "WD"

end Mnemonic

/-- The family of encodings of an operation. The third has the three forms of memory reference:
plain, relative, and with `+` extended to four bytes. -/
inductive Format where
  | one
  | two
  | three
  deriving DecidableEq, Repr

/-- The shape of an operand. -/
inductive OperandShape where
  | none
  | memory
  | register
  | registerPair
  | registerCount
  | count
  deriving DecidableEq, Repr

/-- When a jump is taken. -/
inductive JumpCondition where
  | always
  | equal
  | greater
  | less
  deriving DecidableEq, Repr

/-- What the machine does for an operation. -/
inductive Behavior where
  | load (register : Register)
  | loadByte
  | store (register : Register)
  | storeByte
  | arithmetic (operation : Arithmetic)
  | compare
  | countIndex
  | jump (condition : JumpCondition)
  | call
  | returnToCaller
  | registerArithmetic (operation : Arithmetic)
  | registerCompare
  | clear
  | move
  | shiftLeft
  | shiftRight
  | registerCountIndex
  | unsupported
  deriving DecidableEq, Repr

/-- A machine operation. -/
structure Operation where
  mnemonic : Mnemonic
  opcode : UInt8
  format : Format
  operand : OperandShape
  behavior : Behavior
  deriving DecidableEq, Repr

/-- A text that should name an operation and does not. -/
structure UnknownOperation where
  text : String
  deriving DecidableEq, Repr

/-- The text of the error. -/
def UnknownOperation.message (unknown : UnknownOperation) : String :=
  "Undefined Op: " ++ unknown.text

namespace Operation

/-- Every operation of the machine. -/
def table : List Operation := [
  ⟨.ADD, 0x18, .three, .memory, (.arithmetic .add)⟩,
  ⟨.ADDF, 0x58, .three, .memory, .unsupported⟩,
  ⟨.ADDR, 0x90, .two, .registerPair, (.registerArithmetic .add)⟩,
  ⟨.AND, 0x40, .three, .memory, (.arithmetic .and)⟩,
  ⟨.CLEAR, 0xB4, .two, .register, .clear⟩,
  ⟨.COMP, 0x28, .three, .memory, .compare⟩,
  ⟨.COMPF, 0x88, .three, .memory, .unsupported⟩,
  ⟨.COMPR, 0xA0, .two, .registerPair, .registerCompare⟩,
  ⟨.DIV, 0x24, .three, .memory, (.arithmetic .div)⟩,
  ⟨.DIVF, 0x64, .three, .memory, .unsupported⟩,
  ⟨.DIVR, 0x9C, .two, .registerPair, (.registerArithmetic .div)⟩,
  ⟨.FIX, 0xC4, .one, .none, .unsupported⟩,
  ⟨.FLOAT, 0xC0, .one, .none, .unsupported⟩,
  ⟨.HIO, 0xF4, .one, .none, .unsupported⟩,
  ⟨.J, 0x3C, .three, .memory, (.jump .always)⟩,
  ⟨.JEQ, 0x30, .three, .memory, (.jump .equal)⟩,
  ⟨.JGT, 0x34, .three, .memory, (.jump .greater)⟩,
  ⟨.JLT, 0x38, .three, .memory, (.jump .less)⟩,
  ⟨.JSUB, 0x48, .three, .memory, .call⟩,
  ⟨.LDA, 0x00, .three, .memory, (.load .A)⟩,
  ⟨.LDB, 0x68, .three, .memory, (.load .B)⟩,
  ⟨.LDCH, 0x50, .three, .memory, .loadByte⟩,
  ⟨.LDF, 0x70, .three, .memory, (.load .F)⟩,
  ⟨.LDL, 0x08, .three, .memory, (.load .L)⟩,
  ⟨.LDS, 0x6C, .three, .memory, (.load .S)⟩,
  ⟨.LDT, 0x74, .three, .memory, (.load .T)⟩,
  ⟨.LDX, 0x04, .three, .memory, (.load .X)⟩,
  ⟨.LPS, 0xD0, .three, .memory, .unsupported⟩,
  ⟨.MUL, 0x20, .three, .memory, (.arithmetic .mul)⟩,
  ⟨.MULF, 0x60, .three, .memory, .unsupported⟩,
  ⟨.MULR, 0x98, .two, .registerPair, (.registerArithmetic .mul)⟩,
  ⟨.NORM, 0xC8, .one, .none, .unsupported⟩,
  ⟨.OR, 0x44, .three, .memory, (.arithmetic .or)⟩,
  ⟨.RD, 0xD8, .three, .memory, .unsupported⟩,
  ⟨.RMO, 0xAC, .two, .registerPair, .move⟩,
  ⟨.RSUB, 0x4C, .three, .none, .returnToCaller⟩,
  ⟨.SHIFTL, 0xA4, .two, .registerCount, .shiftLeft⟩,
  ⟨.SHIFTR, 0xA8, .two, .registerCount, .shiftRight⟩,
  ⟨.SIO, 0xF0, .one, .none, .unsupported⟩,
  ⟨.SSK, 0xEC, .three, .memory, .unsupported⟩,
  ⟨.STA, 0x0C, .three, .memory, (.store .A)⟩,
  ⟨.STB, 0x78, .three, .memory, (.store .B)⟩,
  ⟨.STCH, 0x54, .three, .memory, .storeByte⟩,
  ⟨.STF, 0x80, .three, .memory, (.store .F)⟩,
  ⟨.STI, 0xD4, .three, .memory, .unsupported⟩,
  ⟨.STL, 0x14, .three, .memory, (.store .L)⟩,
  ⟨.STS, 0x7C, .three, .memory, (.store .S)⟩,
  ⟨.STSW, 0xE8, .three, .memory, (.store .SW)⟩,
  ⟨.STT, 0x84, .three, .memory, (.store .T)⟩,
  ⟨.STX, 0x10, .three, .memory, (.store .X)⟩,
  ⟨.SUB, 0x1C, .three, .memory, (.arithmetic .sub)⟩,
  ⟨.SUBF, 0x5C, .three, .memory, .unsupported⟩,
  ⟨.SUBR, 0x94, .two, .registerPair, (.registerArithmetic .sub)⟩,
  ⟨.SVC, 0xB0, .two, .count, .unsupported⟩,
  ⟨.TD, 0xE0, .three, .memory, .unsupported⟩,
  ⟨.TIO, 0xF8, .one, .none, .unsupported⟩,
  ⟨.TIX, 0x2C, .three, .memory, .countIndex⟩,
  ⟨.TIXR, 0xB8, .two, .register, .registerCountIndex⟩,
  ⟨.WD, 0xDC, .three, .memory, .unsupported⟩]

/-- The operation with an opcode; the two lowest bits of an opcode are zero. -/
def ofOpcode? (opcode : UInt8) : Option Operation :=
  table.find? fun operation => operation.opcode == opcode

/-- The operation with a name, in letters of either case. -/
def parse? (text : List Char) : Option Operation :=
  table.find? fun operation => operation.mnemonic.name.toList == text.map Char.toUpper

/-- The operation that a text names. -/
def parse (text : String) : Except UnknownOperation Operation :=
  match parse? text.toList with
  | some operation => .ok operation
  | none => .error ⟨text⟩

/-- The number of bytes that an operation takes; `+` extends a memory reference to four. -/
def length (operation : Operation) (extended : Bool) : Nat :=
  match operation.format with
  | .one => 1
  | .two => 2
  | .three => if extended then 4 else 3

/-- An opcode leaves its two lowest bits to the addressing flags. -/
theorem opcode_low_bits : ∀ operation ∈ table, operation.opcode &&& 0x03 = 0 := by
  decide

/-- **No two operations share an opcode.** -/
theorem ofOpcode?_opcode : ∀ operation ∈ table, ofOpcode? operation.opcode = some operation := by
  decide +kernel

theorem mem_table_of_ofOpcode? {opcode : UInt8} {operation : Operation}
    (found : ofOpcode? opcode = some operation) :
    operation ∈ table ∧ operation.opcode = opcode :=
  ⟨List.mem_of_find?_eq_some found, by simpa using List.find?_some found⟩

end Operation

end Sicxe
