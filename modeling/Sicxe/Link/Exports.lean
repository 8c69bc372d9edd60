import Sicxe.Link.Section
import Sicxe.Symbol.Builder

/-!
# Exports

The exported symbols of all modules make up one table, each at its place in the linked program.
Every name that a module refers to must be in it.
-/

namespace Sicxe

/-- A module with its section. -/
abbrev PlacedObject := Object × Section

namespace PlacedObject

/-- The exported symbols of a module at their addresses in its section. -/
def exports (placed : PlacedObject) : List Symbol :=
  (placed.1.symbols.rebased placed.1.start (UInt32.ofNat placed.2.begin)).exported

/-- The names that a module refers to: its imports and the symbols of its records. -/
def references (placed : PlacedObject) : List String :=
  placed.1.imports ++ placed.1.relocations.map Relocation.symbol

/-- A symbol table with the exports of one more module. -/
def addExports (builder : SymbolTable.Builder) (placed : PlacedObject) :
    Except LinkError SymbolTable.Builder :=
  placed.exports.foldlM (fun builder symbol =>
    match builder.insert symbol with
    | .ok builder => .ok builder
    | .error (.duplicate name) => .error (.duplicateExport name placed.2.name)) builder

/-- The exported symbols of all modules; no two modules may export one name. -/
def globals (modules : List PlacedObject) : Except LinkError SymbolTable :=
  match modules.foldlM addExports {} with
  | .ok builder => .ok builder.build
  | .error error => .error error

/-- The first name that a module refers to and that is not in the table. -/
def firstUnresolved? (table : SymbolTable) (modules : List PlacedObject) :
    Option (String × String) :=
  modules.findSome? fun placed =>
    (placed.references.find? fun name => !table.contains name).map fun name =>
      (name, placed.2.name)

/-- Checks that every name that some module refers to is in the table. -/
def checkResolved (table : SymbolTable) (modules : List PlacedObject) : Except LinkError Unit :=
  match firstUnresolved? table modules with
  | some (symbol, module) => .error (.unresolved symbol module)
  | none => .ok ()

end PlacedObject

end Sicxe
