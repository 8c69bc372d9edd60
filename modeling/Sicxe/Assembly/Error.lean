import Sicxe.Symbol.Builder
import Sicxe.Text.Hex
import Sicxe.Text.Style

/-!
# Errors of the assembler

The causes for which a source is refused, their texts, and the diagnostic that shows a cause
together with the line it was found on.
-/

namespace Sicxe

/-- What a piece of an operand was read as. -/
inductive OperandKind where
  | number
  | expression
  | literal
  | byteConstant
  | register
  | registerPair
  deriving DecidableEq, Repr

/-- The name of a kind of operand. -/
def OperandKind.name : OperandKind → String
  | number => "number"
  | expression => "expression"
  | literal => "literal"
  | byteConstant => "byte constant"
  | register => "register"
  | registerPair => "register pair"

/-- Why a source cannot be assembled. -/
inductive AssemblyError where
  | unknownOperation (text : String)
  | missingOperation (label : String)
  | missingOperand (command : String)
  | unreadable (text : String) (kind : OperandKind)
  | notExtendable (text : String)
  | invalidSymbol (text : String)
  | undefinedSymbol (name : String)
  | symbol (error : SymbolError)
  /-- A name is imported and defined in the same source. -/
  | importConflict (name : String)
  | badExpression (text : String)
  | misplacedStart
  | missingEnd
  | missingLabel (directive : String)
  | displacementRange (target : Int) (next : Nat)
  | valueRange (value : Int) (bits : Nat)
  /-- Indexing is combined with immediate or indirect addressing. -/
  | indexedIndirect
  | addressOverflow (counter : Nat)
  | outsideProgram (offset size : Nat)
  deriving DecidableEq, Repr

/-- The text of the error. -/
def AssemblyError.message : AssemblyError → String
  | unknownOperation text => "Unknown operation: `" ++ text ++ "`"
  | missingOperation label => "Label `" ++ label ++ "` without operation"
  | missingOperand command => "`" ++ command ++ "` needs an operand"
  | unreadable text kind => "Cannot parse `" ++ text ++ "` as " ++ kind.name
  | notExtendable text => "`+` is only allowed on format 3 instructions: `" ++ text ++ "`"
  | invalidSymbol text => "Invalid symbol name: `" ++ text ++ "`"
  | undefinedSymbol name => "Undefined symbol: `" ++ name ++ "`"
  | symbol error => error.message
  | importConflict name => "`" ++ name ++ "` is imported with EXTREF and also defined here"
  | badExpression text =>
    "Expression `" ++ text ++ "` must be absolute or relative to this program"
  | misplacedStart => "START must be the first statement"
  | missingEnd => "Missing END"
  | missingLabel directive => directive ++ " needs a label"
  | displacementRange target next =>
    "Target 0x" ++ Hex.intText 6 target ++ " is out of PC-relative range from 0x" ++
      Hex.text 6 next
  | valueRange value bits => "Value " ++ toString value ++ " does not fit in " ++ toString bits ++
      " bits"
  | indexedIndirect => "Indexed addressing needs simple addressing"
  | addressOverflow counter =>
    "Location counter 0x" ++ Hex.text 0 counter ++ " is past the end of memory"
  | outsideProgram offset size =>
    "Offset 0x" ++ Hex.text 6 offset ++ " is outside the " ++ toString size ++ "-byte program"

/-- An error with the number of the line it was found on, counted from 1. A line that the
assembler made up has the number 0. -/
structure Diagnostic where
  line : Nat
  error : AssemblyError
  deriving DecidableEq, Repr

namespace Diagnostic

/-- The heading of an error report. -/
def heading (message : String) : String :=
  Text.render [.alarm "error"] ++ ": " ++ message ++ "\n"

/-- The report of a diagnostic, with the line of the source that it is about. -/
def report (diagnostic : Diagnostic) (file : String) (source : List String) : String :=
  let line := if diagnostic.line = 0 then "" else source.getD (diagnostic.line - 1) ""
  let place := file ++ ":" ++ toString diagnostic.line
  let number := Text.padLeft 4 (toString diagnostic.line)
  let bar := Text.render [.plain "      ", .colored .blue "|"] ++ "\n"
  heading diagnostic.error.message ++
    Text.render [.plain "     ", .colored .blue "-->", .plain " ", .underlined place] ++ "\n" ++
    bar ++
    Text.render [.plain " ", .colored .blue (number ++ " |")] ++ " " ++ line ++ "\n" ++
    bar

end Diagnostic

/-- The result of a step with an assembler error tied to a line. -/
def AssemblyError.at {α : Type} (line : Nat) : Except AssemblyError α → Except Diagnostic α
  | .ok result => .ok result
  | .error error => .error ⟨line, error⟩

end Sicxe
