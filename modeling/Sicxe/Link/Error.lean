import Sicxe.Object.Error

/-!
# Errors of the linker
-/

namespace Sicxe

/-- Why modules cannot be linked. -/
inductive LinkError where
  | noModules
  /-- Two modules share the address where the second one begins. -/
  | overlap (first second : String) (address : Nat)
  | duplicateExport (symbol module : String)
  /-- A module refers to a name that no module exports. -/
  | unresolved (symbol module : String)
  /-- A module is wrong in itself. -/
  | object (module : String) (error : ObjectError)
  /-- A sum of addresses or offsets does not fit in 32 bits. -/
  | overflow
  deriving DecidableEq, Repr

/-- The text of the error. The cause of an error inside a module is told by its own text. -/
def LinkError.message : LinkError → String
  | noModules => "No input modules"
  | overlap first second address =>
    "Address conflict: `" ++ first ++ "` and `" ++ second ++ "` overlap at 0x" ++
      Hex.text 6 address
  | duplicateExport symbol module =>
    "Symbol `" ++ symbol ++ "` is exported twice, again by `" ++ module ++ "`"
  | unresolved symbol module =>
    "Symbol not found: `" ++ symbol ++ "` referenced by `" ++ module ++ "`"
  | object module _ => "In module `" ++ module ++ "`"
  | overflow => "attempt to add with overflow"

end Sicxe
