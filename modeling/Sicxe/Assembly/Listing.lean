import Sicxe.Assembly.Placement
import Sicxe.Instruction.Codec
import Sicxe.Instruction.Display
import Sicxe.Object.Basic
import Sicxe.Bytes

/-!
# Listings

The listing of an assembled program shows every placed line with its address, its bytes and the
instruction that they decode to, and below them the symbols and imports of the module.
-/

namespace Sicxe.Placement

open Text

/-- The first four bytes of a line, with dots behind if there are more. -/
def showBytes (bytes : List UInt8) : String :=
  let shown := (bytes.take 4).map fun byte => Hex.text 2 byte.toNat
  " ".intercalate shown ++ (if bytes.length > 4 then ".." else "")

/-- The bytes of a line in the code of a module, none if the code is too short. -/
def lineBytes (placement : Placement) (object : Object) (line : PlacedLine) : List UInt8 :=
  let offset := line.address - placement.start
  if offset + line.size ≤ object.code.size then Bytes.slice object.code offset line.size else []

/-- The columns of a line for its bytes and for the instruction in them. -/
def showCode (command : Command) (bytes : List UInt8) : String × String :=
  match command with
  | .operation .. =>
    match Instruction.decode bytes with
    | .ok instruction => (showBytes bytes, instruction.display)
    | .error _ => (render [.alarm "!! !! !!"], "")
  | .directive .BYTE | .directive .WORD => (showBytes bytes, "")
  | .directive _ => ("", "")

/-- The row of a placed line. -/
def listLine (placement : Placement) (object : Object) (line : PlacedLine) : String :=
  let (bytes, decoded) := showCode line.command (placement.lineBytes object line)
  let number := if line.line = 0 then "   *" else padLeft 4 (toString line.line)
  "[" ++ Hex.text 6 line.address ++ "] " ++ padRight 11 bytes ++ " | " ++ number ++ ": " ++
    line.display ++ " " ++ decoded ++ "\n"

/-- The mark of a symbol: a constant, an exported address, or neither. -/
def symbolMark (symbol : Symbol) : String :=
  if symbol.absolute then render [.colored .yellow "#"]
  else if symbol.exported then render [.colored .green "@"]
  else " "

/-- The row of a symbol. -/
def listSymbol (symbol : Symbol) : String :=
  symbolMark symbol ++ " 0x" ++ Hex.text 6 symbol.address.toNat ++ " " ++ symbol.name ++ "\n"

/-- The row of an import, whose address is not known. -/
def listImport (name : String) : String :=
  render [.colored .cyan "&"] ++ " ???????? " ++ name ++ "\n"

/-- A rule of `count` dashes. -/
def dashes (count : Nat) : String :=
  String.ofList (List.replicate count '-')

/-- The listing of the source at `path` and the module assembled from it. -/
def listing (placement : Placement) (object : Object) (path : String) : String :=
  dashes 19 ++ "+------[" ++ path ++ "]" ++ dashes (45 - path.utf8ByteSize) ++ "\n" ++
    String.join (placement.lines.map (placement.listLine object)) ++
    dashes 19 ++ "+" ++ dashes 53 ++ "\n" ++
    String.join (object.symbols.symbols.map listSymbol) ++
    String.join (object.imports.map listImport)

end Sicxe.Placement
