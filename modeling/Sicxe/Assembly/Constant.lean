import Sicxe.Assembly.Expr
import Sicxe.Bytes

/-!
# Constants

Byte constants are written `C'text'` or `X'digits'`. A literal is a constant used as an operand,
written with a leading `=`: a byte constant or the number of a word.
-/

namespace Sicxe

/-- The bytes that pairs of hexadecimal digits spell. -/
def hexBytes : List Char → Option (List UInt8)
  | [] => some []
  | [_] => none
  | high :: low :: rest =>
    match Numeral.digits? 16 [high, low], hexBytes rest with
    | some value, some bytes => some (UInt8.ofNat value :: bytes)
    | _, _ => none

/-- The text between two quotes. -/
def unquote? : List Char → Option (List Char)
  | '\'' :: rest => if rest.getLast? = some '\'' then some rest.dropLast else none
  | _ => none

/-- The bytes of a byte constant, none if it is malformed. An odd number of digits has a leading
zero put in front. -/
def byteConstant? : List Char → Option (List UInt8)
  | [] => none
  | kind :: quoted =>
    match unquote? quoted with
    | none => none
    | some body =>
      if kind = 'C' ∨ kind = 'c' then
        some (body.flatMap String.utf8EncodeChar)
      else if kind = 'X' ∨ kind = 'x' then
        if body.isEmpty then none
        else hexBytes (if body.length % 2 = 1 then '0' :: body else body)
      else none

/-- The bytes of a byte constant. -/
def readBytes (text : List Char) : Except AssemblyError (List UInt8) :=
  match byteConstant? text with
  | some bytes => .ok bytes
  | none => .error (.unreadable (String.ofList text) .byteConstant)

/-- The value of a literal. -/
inductive Literal where
  | bytes (content : List UInt8)
  | word (value : Int)
  deriving DecidableEq, Repr

namespace Literal

/-- The text of a literal without its `=`. -/
def body : List Char → List Char
  | '=' :: rest => rest
  | text => text

/-- Whether the body of a literal is a byte constant. -/
def isByteConstant (body : List Char) : Bool :=
  body.head?.any fun c => c == 'C' || c == 'c' || c == 'X' || c == 'x'

/-- The value of a literal. -/
def parse (text : String) : Except AssemblyError Literal :=
  let body := body text.toList
  if isByteConstant body then (readBytes body).map bytes else (readInteger body).map word

/-- The number of bytes that a literal takes. -/
def size : Literal → Nat
  | .bytes content => content.length
  | .word _ => 3

end Literal

end Sicxe
