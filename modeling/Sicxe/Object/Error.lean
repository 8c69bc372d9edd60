import Sicxe.Symbol.Builder
import Sicxe.Text.Hex

/-!
# Errors of object modules

A field may not take its fix-up, and a text may fail to be an object module. `ObjectError` and
`Malformation` name the causes; their messages are in `message`.
-/

namespace Sicxe

/-- What is wrong with a line of object text. -/
inductive Malformation where
  /-- The first record is no header. -/
  | headerExpected
  | secondHeader
  | missingHeader
  | fieldCount (kind : String) (needed found : Nat)
  /-- A text that should be a hexadecimal number is none. -/
  | badNumber (what text : String)
  | beyondAddressSpace (length start : Nat)
  | symbol (error : SymbolError)
  /-- A text record that does not continue the one before. -/
  | textAddress (found expected : Nat)
  | payloadLength (declared digits : Nat)
  | textPastEnd
  | badPayload
  | halfByteCount
  | missingPlus
  | beforeStart
  | unknownRecord (kind : String)
  /-- The text records end before the end that the header declares. -/
  | coverage (start covered declared : Nat)
  deriving DecidableEq, Repr

/-- The description of a malformation. -/
def Malformation.message : Malformation → String
  | headerExpected => "object must begin with an `H` record"
  | secondHeader => "second `H` record"
  | missingHeader => "missing `H` record"
  | fieldCount kind needed found =>
    "`" ++ kind ++ "` record needs " ++ toString needed ++ " fields, found " ++ toString found
  | badNumber what text => "bad " ++ what ++ ": `" ++ text ++ "`"
  | beyondAddressSpace length start =>
    Hex.text 0 length ++ " bytes at " ++ Hex.text 6 start ++ " exceed the address space"
  | symbol error => error.message
  | textAddress found expected =>
    "text at " ++ Hex.text 6 found ++ ", expected " ++ Hex.text 6 expected
  | payloadLength declared digits =>
    "length " ++ Hex.text 2 declared ++ " but " ++ toString digits ++ " hex digits"
  | textPastEnd => "text past the end of the module"
  | badPayload => "bad text payload"
  | halfByteCount => "half-byte count must be 1 to 8"
  | missingPlus => "modification symbol needs `+`"
  | beforeStart => "modification before the module start"
  | unknownRecord kind => "unknown record `" ++ kind ++ "`"
  | coverage start covered declared =>
    "text covers " ++ Hex.text 6 start ++ ".." ++ Hex.text 6 covered ++ ", header declares " ++
      Hex.text 6 start ++ ".." ++ Hex.text 6 declared

/-- Why an object module cannot be read or fixed up. -/
inductive ObjectError where
  | fieldOutOfRange (offset length size : Nat)
  /-- An address too great for its field. -/
  | fieldOverflow (symbol : String) (offset : Nat)
  /-- A symbol too far from the instruction that refers to it. -/
  | displacementRange (symbol : String) (offset : Nat) (distance : Int)
  /-- Line 0 stands for the text as a whole. -/
  | malformed (line : Nat) (reason : Malformation)
  | textTooLong (line length : Nat)
  deriving DecidableEq, Repr

/-- The text of the error. -/
def ObjectError.message : ObjectError → String
  | fieldOutOfRange offset length size =>
    "Field at offset 0x" ++ Hex.text 6 offset ++ " (" ++ toString length ++
      " bytes) is outside the " ++ toString size ++ "-byte module"
  | fieldOverflow symbol offset =>
    "Address of `" ++ symbol ++ "` does not fit the field at offset 0x" ++ Hex.text 6 offset
  | displacementRange symbol offset distance =>
    "`" ++ symbol ++ "` is " ++ toString distance ++
      " bytes from the instruction at offset 0x" ++ Hex.text 6 offset ++
      ", beyond a 12-bit displacement"
  | malformed line reason =>
    "Malformed object record on line " ++ toString line ++ ": " ++ reason.message
  | textTooLong line length =>
    "Text record on line " ++ toString line ++ " holds " ++ toString length ++
      " bytes, the limit is 30"

end Sicxe
