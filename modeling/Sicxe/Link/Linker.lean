import Sicxe.Link.Exports
import Sicxe.Object.Fixup

/-!
# Linking

* `Object.linkAbsolute` leaves every module at its own start and fixes up all its fields. The
  result has nothing left to fix up and cannot be moved.
* `Object.linkRelocatable` lays the modules end to end from address 0 and keeps their relocation
  records. The imports that no module exports remain.

The linked program takes its name and entry from the first module. Addresses and offsets are numbers
of 32 bits, and the linker stops with `LinkError.overflow` where a sum of them is none.
-/

namespace Sicxe

/-- How modules are linked. -/
inductive LinkMode where
  | absolute
  | relocatable
  deriving DecidableEq, Repr

/-- A link mode as it is written. -/
def LinkMode.name : LinkMode → String
  | absolute => "absolute"
  | relocatable => "relocatable"

namespace Object

/-- The image with one record of a module fixed up. The module lies `distance` bytes behind the
start of the image. -/
def fixUp (globals : SymbolTable) (start distance : Nat) (name : String) (image : Array UInt8)
    (record : Relocation) : Except LinkError (Array UInt8) :=
  match globals.address? record.symbol with
  | none => .error (.unresolved record.symbol name)
  | some address =>
    if (record.shifted distance).Addressable then
      match (record.shifted distance).apply image address.toNat start with
      | .ok image => .ok image
      | .error error => .error (.object name error)
    else .error .overflow

/-- The image that starts at `start` with one module copied to its section and fixed up. -/
def placeInImage (globals : SymbolTable) (start : Nat) (image : Array UInt8)
    (placed : PlacedObject) : Except LinkError (Array UInt8) :=
  let (object, range) := placed
  let distance := range.begin - start
  let image := Bytes.write image distance object.code.toList
  object.relocations.foldlM (fixUp globals start distance range.name) image

/-- The program of modules at their own starts. -/
def linkAbsolute (first : Object) (rest : List Object) : Except LinkError Object := do
  let modules := first :: rest
  let sections ← Section.atStarts modules
  let placed := modules.zip sections
  let (start, limit) := Section.span sections
  let globals ← PlacedObject.globals placed
  PlacedObject.checkResolved globals placed
  let code ← placed.foldlM (placeInImage globals start) (Array.replicate (limit - start) 0)
  return {
    name := first.name
    start := UInt32.ofNat start
    entry := first.entry
    code
    symbols := globals
    fullyRelocated := true }

/-- The records of a module moved to its section, with offsets as numbers. -/
def placedRelocations (placed : PlacedObject) : List Relocation :=
  placed.1.relocations.map fun record => record.shifted placed.2.begin

/-- The records of all modules moved to their sections, if all of them have offsets there. -/
def movedRelocations (modules : List PlacedObject) : Except LinkError (List Relocation) :=
  let records := modules.flatMap placedRelocations
  if ∀ record ∈ records, record.Addressable then .ok records else .error .overflow

/-- The imports of all modules that no module exports, each once. -/
def openImports (globals : SymbolTable) (modules : List Object) : List String :=
  (modules.flatMap fun object => object.imports.filter fun name => !globals.contains name).foldl
    addName []

/-- The relocatable program of modules laid end to end. -/
def linkRelocatable (first : Object) (rest : List Object) : Except LinkError Object := do
  let modules := first :: rest
  let sections ← Section.endToEnd modules
  let placed := modules.zip sections
  let globals ← PlacedObject.globals placed
  let relocations ← movedRelocations placed
  return {
    name := first.name
    start := 0
    entry := first.entry - first.start
    code := modules.foldl (fun code object => code ++ object.code) #[]
    symbols := globals
    imports := openImports globals modules
    relocations
    fullyRelocated := false }

/-- The program that modules make up in some mode. There must be at least one module. -/
def link (modules : List Object) (mode : LinkMode) : Except LinkError Object :=
  match modules with
  | [] => .error .noModules
  | first :: rest =>
    match mode with
    | .absolute => linkAbsolute first rest
    | .relocatable => linkRelocatable first rest

end Object

end Sicxe
