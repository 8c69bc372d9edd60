import Sicxe.Machine.Basic
import Sicxe.Object.Fixup

/-!
# Loading programs

`Machine.load` places an object module in memory and makes the machine ready to run it. A module
that can be moved goes to the base that is asked for, and its fields are fixed up for that base.
The registers are cleared, PC points to the entry, and L holds the address on which a return halts
the machine. An error leaves the machine as it was.
-/

namespace Sicxe

/-- Where a module was put. -/
structure LoadReport where
  base : UInt32
  length : Nat
  entry : UInt32
  /-- The symbols of the module at their places in memory. -/
  symbols : SymbolTable
  deriving DecidableEq, Repr

namespace Object

/-- The address that a module is loaded at: its start, unless it can be moved and another base is
asked for. -/
def loadBase (object : Object) (base : Option UInt32) : UInt32 :=
  if object.fullyRelocated then object.start else base.getD object.start

/-- Code with the field of a record fixed up from a symbol table, at the address `base`. -/
def fixUpLocal (symbols : SymbolTable) (base : UInt32) (code : Array UInt8)
    (record : Relocation) : Except MachineError (Array UInt8) :=
  match symbols.address? record.symbol with
  | none => .error (.unresolvedSymbol record.symbol)
  | some address =>
    match record.apply code address.toNat base.toNat with
    | .ok code => .ok code
    | .error error => .error (.object error)

/-- The code of a module fixed up for the address `base`, where its symbols are at their places.
The module itself must define everything that it refers to. -/
def codeAt (object : Object) (base : UInt32) (symbols : SymbolTable) :
    Except MachineError (Array UInt8) := do
  let code ← object.relocations.foldlM (fixUpLocal symbols base) object.code
  match object.imports.find? fun name => !symbols.contains name with
  | some name => .error (.unresolvedSymbol name)
  | none => return code

end Object

namespace Machine

/-- Loads a module, at `base` if it can be moved there. -/
def load (machine : Machine) (object : Object) (base : Option UInt32) :
    Except MachineError (Machine × LoadReport) := do
  let base := object.loadBase base
  let symbols := object.symbols.rebased object.start base
  let code ← object.codeAt base symbols
  let memory ← machine.memory.write base.toNat code.toList
  let entry := base + (object.entry - object.start)
  let registers := (({} : Registers).set .L haltAddress).setCounter entry.toNat
  return ({ memory, registers }, ⟨base, object.length, entry, symbols⟩)

end Machine

end Sicxe
