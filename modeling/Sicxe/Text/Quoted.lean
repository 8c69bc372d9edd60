import Sicxe.Text.Hex
import Sicxe.Text.Invisible

/-!
# Quoted text

A text in double quotes, as it is shown when its exact characters matter. A quote, a backslash and
the common control characters are written with a backslash, and every other character that leaves
no visible mark of its own is written by its number.
-/

namespace Sicxe.Text

/-- A character as it is written between quotes. -/
def quoteChar (c : Char) : List Char :=
  if c = '\t' then ['\\', 't']
  else if c = '\n' then ['\\', 'n']
  else if c = '\r' then ['\\', 'r']
  else if c.toNat = 0 then ['\\', '0']
  else if c = '"' ∨ c = '\\' then ['\\', c]
  else if isInvisible c then
    ['\\', 'u', '\x7b'] ++ (Hex.digits c.toNat).map Char.toLower ++ ['\x7d']
  else [c]

/-- A text in double quotes. -/
def quote (text : String) : String :=
  String.ofList (['"'] ++ text.toList.flatMap quoteChar ++ ['"'])

end Sicxe.Text
