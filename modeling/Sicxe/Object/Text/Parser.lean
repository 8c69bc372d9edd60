import Sicxe.Numeral
import Sicxe.Object.Error
import Sicxe.Object.Text.Printer
import Sicxe.Symbol.Builder
import Sicxe.Text.Blank

/-!
# Reading object text

`Object.ofText` reads the records of a module one by one into a `Draft`. The header comes first;
text records must cover the module from its start without a gap; the other records may stand in
any order, and blank lines are skipped. A module with neither fields to fix up nor imports is
fully relocated.
-/

namespace Sicxe.Object

/-- The number of addresses of the machine. -/
def addressSpace : Nat := 0x100000

/-- What the records read so far say about a module. -/
structure Draft where
  name : String
  start : Nat
  /-- The length that the header declares. -/
  length : Nat
  code : Array UInt8 := #[]
  symbols : SymbolTable.Builder := {}
  imports : List String := []
  relocations : Array Relocation := #[]
  entry : Option Nat := none

/-- The error of a malformed line. -/
def malformed {α : Type} (line : Nat) (reason : Malformation) : Except ObjectError α :=
  .error (.malformed line reason)

/-- The error of a record of some kind that has not `needed` fields. -/
def wrongFieldCount {α : Type} (line : Nat) (kind : Char) (needed : Nat) (fields : Record) :
    Except ObjectError α :=
  malformed line (.fieldCount kind.toString needed (fields.length + 1))

/-- A field as a hexadecimal number of 32 bits. -/
def readNumber (line : Nat) (what : String) (field : List Char) : Except ObjectError Nat :=
  match Numeral.natural? 16 Numeral.wordBound field with
  | some number => .ok number
  | none => malformed line (.badNumber what (String.ofList field))

/-- Reads a header. The module must end within the address space. -/
def readHeader (line : Nat) (fields : Record) : Except ObjectError Draft :=
  match fields with
  | [name, start, length] => do
    let start ← readNumber line "start address" start
    let length ← readNumber line "length" length
    if start + length ≤ addressSpace then
      return { name := String.ofList (Text.trim name), start, length }
    else
      malformed line (.beyondAddressSpace length start)
  | _ => wrongFieldCount line 'H' 4 fields

/-- Reads an exported symbol. -/
def readSymbol (draft : Draft) (line : Nat) (fields : Record) : Except ObjectError Draft :=
  match fields with
  | [name, address] => do
    let address ← readNumber line "symbol address" address
    match draft.symbols.insert ⟨String.ofList name, UInt32.ofNat address, true, false⟩ with
    | .ok symbols => return { draft with symbols }
    | .error error => malformed line (.symbol error)
  | _ => wrongFieldCount line 'D' 3 fields

/-- Reads an imported name. -/
def readImport (draft : Draft) (line : Nat) (fields : Record) : Except ObjectError Draft :=
  match fields with
  | [name] => .ok { draft with imports := addName draft.imports (String.ofList name) }
  | _ => wrongFieldCount line 'R' 2 fields

/-- The characters at the front of a payload that make up two bytes of text, and the rest. There
are none if a longer character stands across the end of the two bytes. -/
def takePair? : List Char → Option (List Char × List Char)
  | [] => none
  | first :: rest =>
    if first.utf8Size = 2 then some ([first], rest)
    else if first.utf8Size = 1 then
      match rest with
      | second :: rest => if second.utf8Size = 1 then some ([first, second], rest) else none
      | [] => none
    else none

/-- The next `count` bytes of a payload, each written as a number of two characters. -/
def readPayload (line : Nat) : Nat → List Char → Except ObjectError (List UInt8)
  | 0, _ => .ok []
  | count + 1, payload =>
    match takePair? payload with
    | none => malformed line .badPayload
    | some (digits, rest) => do
      let byte ← readNumber line "text byte" digits
      let bytes ← readPayload line count rest
      return UInt8.ofNat byte :: bytes

/-- Reads a stretch of code, which must follow the code read before. -/
def readText (draft : Draft) (line : Nat) (fields : Record) : Except ObjectError Draft :=
  match fields with
  | [address, length, payload] => do
    let address ← readNumber line "text address" address
    let length ← readNumber line "text length" length
    if maxTextLength < length then
      .error (.textTooLong line length)
    else if address ≠ draft.start + draft.code.size then
      malformed line (.textAddress address (draft.start + draft.code.size))
    else if Text.byteLength payload ≠ 2 * length then
      malformed line (.payloadLength length (Text.byteLength payload))
    else if draft.length < draft.code.size + length then
      malformed line .textPastEnd
    else
      let bytes ← readPayload line length payload
      return { draft with code := draft.code.appendList bytes }
  | _ => wrongFieldCount line 'T' 4 fields

/-- Reads a field to be fixed up. Its half bytes tell the bytes that it spans, and three of them
are a displacement. The half-byte count is kept in one byte. -/
def readFixup (draft : Draft) (line : Nat) (fields : Record) : Except ObjectError Draft :=
  match fields with
  | [address, halfBytes, symbol] => do
    let address ← readNumber line "modification address" address
    let count ← readNumber line "half-byte count" halfBytes
    let halfBytes := count % 256
    if halfBytes < 1 ∨ 8 < halfBytes then
      malformed line .halfByteCount
    else
      match symbol with
      | '+' :: symbol =>
        if address < draft.start then
          malformed line .beforeStart
        else
          let record : Relocation :=
            ⟨address - draft.start, String.ofList symbol, (halfBytes + 1) / 2, halfBytes,
              halfBytes == 3⟩
          return { draft with relocations := draft.relocations.push record }
      | _ => malformed line .missingPlus
  | _ => wrongFieldCount line 'M' 4 fields

/-- Reads the entry; of several entries the last one counts. -/
def readEntry (draft : Draft) (line : Nat) (fields : Record) : Except ObjectError Draft :=
  match fields with
  | [address] => do
    let entry ← readNumber line "entry address" address
    return { draft with entry := some entry }
  | _ => wrongFieldCount line 'E' 2 fields

/-- Reads a record after the header. -/
def readRecord (draft : Draft) (line : Nat) (record : Record) : Except ObjectError Draft :=
  match record with
  | ['H'] :: _ => malformed line .secondHeader
  | ['D'] :: fields => readSymbol draft line fields
  | ['R'] :: fields => readImport draft line fields
  | ['T'] :: fields => readText draft line fields
  | ['M'] :: fields => readFixup draft line fields
  | ['E'] :: fields => readEntry draft line fields
  | kind :: _ => malformed line (.unknownRecord (String.ofList kind))
  | [] => malformed line (.unknownRecord "")

/-- Reads the records after the header. -/
def readRecords (draft : Draft) : List (Nat × Record) → Except ObjectError Draft
  | [] => .ok draft
  | (line, record) :: rest =>
    match readRecord draft line record with
    | .ok draft => readRecords draft rest
    | .error error => .error error

/-- The numbered records of a text. Blanks at the end of a line do not count, nor do lines without
anything else. -/
def recordsOfText (text : List Char) : List (Nat × Record) :=
  let numbered := (Text.lines text).zipIdx 1
  numbered.filterMap fun (line, number) =>
    let line := Text.trimRight line
    if line.isEmpty then none else some (number, Record.ofLine line)

/-- The module that a draft describes. Its text must reach the declared end. -/
def ofDraft (draft : Draft) : Except ObjectError Object :=
  if draft.code.size = draft.length then
    .ok
      { name := draft.name
        start := UInt32.ofNat draft.start
        entry := UInt32.ofNat (draft.entry.getD draft.start)
        code := draft.code
        symbols := draft.symbols.build
        imports := draft.imports
        relocations := draft.relocations.toList
        fullyRelocated := draft.relocations.isEmpty && draft.imports.isEmpty }
  else
    malformed 0 (.coverage draft.start (draft.start + draft.code.size)
      (draft.start + draft.length))

/-- The module that a list of numbered records describes. -/
def ofRecords (records : List (Nat × Record)) : Except ObjectError Object :=
  match records with
  | [] => malformed 0 .missingHeader
  | (line, ['H'] :: fields) :: rest => do
    let header ← readHeader line fields
    let draft ← readRecords header rest
    ofDraft draft
  | (line, _) :: _ => malformed line .headerExpected

/-- The module that a text describes. -/
def ofText (text : String) : Except ObjectError Object :=
  ofRecords (recordsOfText text.toList)

end Sicxe.Object
