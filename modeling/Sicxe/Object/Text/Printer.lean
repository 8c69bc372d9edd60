import Sicxe.Object.Basic
import Sicxe.Text.Hex
import Sicxe.Text.Lines

/-!
# Writing object text

An object module as text has one record on each line, and a record is a list of fields with `^`
between them. The first field tells the kind of the record:

* `H` name, start, length: the header, always first.
* `D` name, address: an exported symbol.
* `R` name: an import.
* `T` address, length, bytes: a stretch of at most 30 bytes of code.
* `M` address, half bytes, `+` symbol: a field to be fixed up.
* `E` address: the entry.
-/

namespace Sicxe.Object

/-- The number of bytes that a text record holds at most. -/
def maxTextLength : Nat := 30

/-- A record as the list of its fields. -/
abbrev Record := List (List Char)

namespace Record

/-- The line of a record. -/
def line (record : Record) : List Char :=
  ['^'].intercalate record

/-- The record of a line. -/
def ofLine (line : List Char) : Record :=
  line.splitOn '^'

end Record

/-- The header of a module. -/
def headerRecord (object : Object) : Record :=
  [['H'], object.name.toList.rightpad 6 ' ', Hex.padded 6 object.start.toNat,
    Hex.padded 6 object.length]

/-- The record of an exported symbol. -/
def symbolRecord (symbol : Symbol) : Record :=
  [['D'], symbol.name.toList, Hex.padded 6 symbol.address.toNat]

/-- The record of an imported name. -/
def importRecord (name : String) : Record :=
  [['R'], name.toList]

/-- The stretches of code that go into one text record each, with their offsets. -/
def chunks (code : Array UInt8) : List (Nat × List UInt8) :=
  (List.range ((code.size + (maxTextLength - 1)) / maxTextLength)).map fun index =>
    (maxTextLength * index,
      (code.extract (maxTextLength * index) (maxTextLength * index + maxTextLength)).toList)

/-- The record of the bytes at `address`. -/
def textRecord (address : Nat) (bytes : List UInt8) : Record :=
  [['T'], Hex.padded 6 address, Hex.padded 2 bytes.length, Hex.ofBytes bytes]

/-- The record of a field to be fixed up in a module that starts at `start`. -/
def fixupRecord (start : Nat) (relocation : Relocation) : Record :=
  [['M'], Hex.padded 6 (start + relocation.offset), Hex.padded 2 relocation.halfBytes,
    '+' :: relocation.symbol.toList]

/-- The record of the entry. -/
def entryRecord (object : Object) : Record :=
  [['E'], Hex.padded 6 object.entry.toNat]

/-- The records of a module in the order in which they are written. A fully relocated module has
no fields left to fix up. -/
def records (object : Object) : List Record :=
  [object.headerRecord] ++
  object.symbols.exported.map symbolRecord ++
  object.imports.map importRecord ++
  (chunks object.code).map (fun (offset, bytes) => textRecord (object.start.toNat + offset) bytes) ++
  (if object.fullyRelocated then [] else
    object.relocations.map (fixupRecord object.start.toNat)) ++
  [object.entryRecord]

/-- The text of a module. -/
def toText (object : Object) : String :=
  String.ofList (Text.unlines (object.records.map Record.line))

end Sicxe.Object
