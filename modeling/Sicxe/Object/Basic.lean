import Sicxe.Numeral
import Sicxe.Symbol.Basic
import Sicxe.Word

/-!
# Object modules

An object module is the code of one program together with what a linker or loader must know to
move it: its symbols, the names that it imports, and a relocation record for each field that
depends on where a symbol ends up.
-/

namespace Sicxe

/-- A field of a module's code that has to be fixed up once its symbol has an address. -/
structure Relocation where
  /-- The offset of the first byte of the field. -/
  offset : Nat
  /-- The symbol whose address goes into the field. -/
  symbol : String
  /-- The number of bytes that the field spans. -/
  length : Nat
  /-- The number of half bytes that change, counted from the low end of the field. -/
  halfBytes : Nat
  /-- The field holds a displacement from the end of its instruction. -/
  relative : Bool
  deriving DecidableEq, Repr

namespace Relocation

/-- The 20-bit address of the extended instruction at `instruction`. -/
def address20 (instruction : Nat) (symbol : String) : Relocation :=
  ⟨instruction + 1, symbol, 3, 5, false⟩

/-- The 12-bit displacement of the relative instruction at `instruction`. -/
def displacement (instruction : Nat) (symbol : String) : Relocation :=
  ⟨instruction + 1, symbol, 2, 3, true⟩

/-- The word at `offset`. -/
def word (offset : Nat) (symbol : String) : Relocation :=
  ⟨offset, symbol, 3, 6, false⟩

/-- The offset of the instruction that a displacement field belongs to: the field starts at its
second byte. -/
def instruction (record : Relocation) : Nat :=
  record.offset - 1

/-- The record for the same field when the code lies `distance` bytes further on, with its offset as
a number. The linker takes no such record unless it is `Relocation.Addressable`. -/
def shifted (record : Relocation) (distance : Nat) : Relocation :=
  { record with offset := record.offset + distance }

/-- The offset of a record fits in the 32 bits of an offset. -/
def Addressable (record : Relocation) : Prop :=
  record.offset < Numeral.wordBound

instance (record : Relocation) : Decidable record.Addressable :=
  inferInstanceAs (Decidable (_ < _))

/-- The number of values that the half bytes of the field can hold. -/
def capacity (record : Relocation) : Nat :=
  valueCount (4 * record.halfBytes)

end Relocation

/-- An object module. -/
structure Object where
  name : String := ""
  /-- The address that the code is written for. -/
  start : UInt32 := 0
  /-- The address where execution begins. -/
  entry : UInt32 := 0
  code : Array UInt8 := #[]
  symbols : SymbolTable := {}
  /-- The names that other modules have to export. -/
  imports : List String := []
  relocations : List Relocation := []
  /-- Nothing is left to fix up, so the module cannot be moved. -/
  fullyRelocated : Bool := false
  /-- The source lines that the module was assembled from. -/
  source : Option (List String) := none
  deriving DecidableEq, Repr

namespace Object

/-- The number of bytes of a module. -/
def length (object : Object) : Nat :=
  object.code.size

/-- The first address past a module, as a number. Where it does not fit in the 32 bits of an address
the module has no section at its start (`Section.checked`). -/
def limit (object : Object) : Nat :=
  object.start.toNat + object.length

end Object

end Sicxe
