import Sicxe.Object.Error
import Sicxe.Operation

/-!
# Errors of the machine

What keeps an instruction from being executed or a program from being loaded.
-/

namespace Sicxe

/-- Why the machine cannot do what it is asked to do. -/
inductive MachineError where
  /-- An access to memory that is not there. -/
  | outOfBounds (address length size : Nat)
  /-- A memory below the minimum. -/
  | memorySize (size : Nat)
  /-- An access to a register at another width than its own. -/
  | registerWidth (register : Register) (requested : Width)
  | invalidRegister (number : Nat)
  | invalidOpcode (byte : UInt8) (pc : Nat)
  /-- An operation that the machine knows but cannot do. -/
  | unsupported (mnemonic : Mnemonic) (pc : Nat)
  | divisionByZero (pc : Nat)
  | storeImmediate (pc : Nat)
  /-- A step of a machine that has halted. -/
  | halted
  | unresolvedSymbol (name : String)
  | object (error : ObjectError)
  deriving DecidableEq, Repr

/-- The text of the error. -/
def MachineError.message : MachineError → String
  | outOfBounds address length size =>
    "Memory access at 0x" ++ Hex.text 6 address ++ " (" ++ toString length ++
      " bytes) is outside " ++ toString size ++ " bytes of memory"
  | memorySize size => "Memory of " ++ toString size ++ " bytes is below the minimum of 1024"
  | registerWidth register requested =>
    "Register " ++ register.name ++ " is " ++ toString register.width.bits ++
      " bits wide, accessed as " ++ toString requested.bits ++ " bits"
  | invalidRegister number => "Invalid register number " ++ toString number
  | invalidOpcode byte pc =>
    "Invalid opcode byte 0x" ++ Hex.text 2 byte.toNat ++ " at 0x" ++ Hex.text 6 pc
  | unsupported mnemonic pc =>
    "Unsupported instruction " ++ mnemonic.name ++ " at 0x" ++ Hex.text 6 pc
  | divisionByZero pc => "Division by zero at 0x" ++ Hex.text 6 pc
  | storeImmediate pc => "Cannot store to an immediate operand at 0x" ++ Hex.text 6 pc
  | halted => "Machine has halted"
  | unresolvedSymbol name => "Symbol not found: `" ++ name ++ "`"
  | object error => error.message

end Sicxe
