/-!
# Lines

A text is cut at its line feeds. A carriage return right before a line feed belongs to the line
end; the piece after the last line feed is a line unless it is empty.
-/

namespace Sicxe.Text

/-- A line without the carriage return at its end, if there is one. -/
def dropReturn (line : List Char) : List Char :=
  if line.getLast? = some '\r' then line.dropLast else line

/-- The lines of a text. -/
def lines (text : List Char) : List (List Char) :=
  let pieces := text.splitOn '\n'
  let ended := pieces.dropLast.map dropReturn
  match pieces.getLast? with
  | none | some [] => ended
  | some last => ended ++ [last]

/-- The lines of a string. -/
def stringLines (text : String) : List String :=
  (lines text.toList).map String.ofList

/-- A text in which every line is ended by a line feed. -/
def unlines (lines : List (List Char)) : List Char :=
  lines.flatMap (· ++ ['\n'])

/-- The number of bytes that a text takes in UTF-8. -/
def byteLength (text : List Char) : Nat :=
  text.foldl (fun length c => length + c.utf8Size) 0

end Sicxe.Text
