import Sicxe.Text.Yaml.Block

/-!
# Documents

A text with one YAML document. Directives and comments may stand in front of it, a line with three
dashes may begin it, and a line with three dots may end it.
-/

namespace Sicxe.Yaml

/-- Whether a character ends a line. -/
def isBreak (c : Char) : Bool :=
  c == '\n' || c == '\r' || c == '\u0085' || c == '\u2028' || c == '\u2029'

/-- The lines of a text. -/
def splitLines : List Char → List (List Char)
  | [] => [[]]
  | c :: rest =>
    if c = '\r' && rest.head? = some '\n' then splitLines rest
    else if isBreak c then [] :: splitLines rest
    else
      match splitLines rest with
      | [] => [[c]]
      | line :: others => (c :: line) :: others

/-- Whether a line holds a mark of three characters, alone or with a blank behind it. -/
def isMarkLine (mark line : List Char) : Bool :=
  mark.isPrefixOf line && (line.drop 3).head?.all isBlank

/-- Whether a line may stand in front of a document. -/
def isPrologue (line : List Char) : Bool :=
  line.head? == some '%' || (line.dropWhile isBlank).head?.all (· == '#')

/-- The lines of the document among all lines of a text. Blanks take the place of the mark in front
of it. -/
def documentLines (lines : List (List Char)) : List (List Char) :=
  let start := ['-', '-', '-']
  let lines := match lines.dropWhile isPrologue with
    | first :: others =>
      if isMarkLine start first then ([' ', ' ', ' '] ++ first.drop 3) :: others
      else first :: others
    | [] => []
  lines.takeWhile fun line => !isMarkLine start line && !isMarkLine ['.', '.', '.'] line

/-- The characters of the document in a text. A byte order mark in front does not count. -/
def documentSource (text : List Char) : Source :=
  let text := if text.head? = some '\ufeff' then text.drop 1 else text
  Source.place 0 (joinLines (documentLines (splitLines text)))

/-- The data that a text describes. -/
def parse (text : String) : Option Node :=
  let source := documentSource text.toList
  match (readBlock (4 * source.length + 8) 0 0 {}).run { source } with
  | some (node, reading) =>
    if (Source.skipGaps false reading.source).isEmpty then some node else none
  | none => none

end Sicxe.Yaml
