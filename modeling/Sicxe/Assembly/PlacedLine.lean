import Sicxe.Assembly.Statement
import Sicxe.Text.Style

/-!
# Placed lines

A statement together with the address that it was placed at and the number of bytes reserved for
it.
-/

namespace Sicxe

/-- A statement at its address. -/
structure PlacedLine where
  /-- The number of the source line, 0 for a line that holds a literal. -/
  line : Nat
  label : Option String
  command : Command
  operand : Option String
  address : Nat
  size : Nat
  deriving DecidableEq, Repr

namespace PlacedLine

/-- The spans of a placed line in a listing. -/
def spans (placed : PlacedLine) : List Text.Span :=
  [.colored .green (Text.padRight 8 (placed.label.getD "")),
    .colored .red (Text.padRight 7 placed.command.text),
    .colored .blue (placed.operand.getD "")]

/-- The styled text of a placed line. -/
def display (placed : PlacedLine) : String :=
  Text.render placed.spans

end PlacedLine

end Sicxe
