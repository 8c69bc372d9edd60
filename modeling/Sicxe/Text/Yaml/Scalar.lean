import Sicxe.Numeral
import Sicxe.Text.Yaml.Node
import Sicxe.Text.Yaml.Source

/-!
# Scalars

The text of a single value: a plain one, which ends where the syntax around it goes on, a quoted
one, and a block of lines. A line end inside a plain or quoted scalar stands for a space, and each
further one for itself.
-/

namespace Sicxe.Yaml

/-- Where a scalar stands: between brackets, or on lines of its own that are indented at least to a
column. -/
inductive Context where
  | flow
  | block (least : Nat)
  deriving DecidableEq, Repr

/-- The text that a gap inside a scalar stands for. -/
def foldGap (gap : List Char) : List Char :=
  match gap.count '\n' with
  | 0 => gap
  | 1 => [' ']
  | breaks + 1 => List.replicate breaks '\n'

/-! ### Plain scalars -/

/-- Whether a character belongs to the brackets around a node and not to a word inside them. -/
def isFlowMark (c : Char) : Bool :=
  c == ',' || c == '[' || c == ']' || c == '\x7b' || c == '\x7d'

/-- Whether a plain scalar ends before `next`, which stands behind a gap. -/
def endsPlain (context : Context) (gap : List Char) (next : Placed) (rest : Source) : Bool :=
  (next.char == ':' && Source.atWordEnd rest) ||
    (next.char == '#' && !gap.isEmpty) ||
    match context with
    | .flow => isFlowMark next.char
    | .block least => gap.contains '\n' && next.column < least

/-- The plain scalar at the front of a source and what follows it. `gap` holds the blanks since the
last word, which began at `wordEnd`. -/
def readPlain (context : Context) (gap : List Char) (wordEnd : Source) :
    Source → List Char × Source
  | [] => ([], wordEnd)
  | next :: rest =>
    if isGap next.char then readPlain context (gap ++ [next.char]) wordEnd rest
    else if endsPlain context gap next rest then ([], wordEnd)
    else
      let (text, after) := readPlain context [] rest rest
      (foldGap gap ++ next.char :: text, after)

/-! ### Quoted scalars -/

/-- The text up to a single quote; two quotes stand for one. -/
def readSingleQuoted (gap : List Char) : Source → Option (List Char × Source)
  | [] => none
  | next :: rest =>
    if isGap next.char then readSingleQuoted (gap ++ [next.char]) rest
    else if next.char = '\x27' then
      match rest with
      | second :: rest =>
        if second.char = '\x27' then
          (readSingleQuoted [] rest).map fun (text, after) =>
            (foldGap gap ++ '\x27' :: text, after)
        else some (foldGap gap, second :: rest)
      | [] => some (foldGap gap, [])
    else
      (readSingleQuoted [] rest).map fun (text, after) =>
        (foldGap gap ++ next.char :: text, after)

/-- The characters that letters stand for behind a backslash. -/
def escapes : List (Char × Char) :=
  [('0', '\x00'), ('a', '\x07'), ('b', '\x08'), ('t', '\t'), ('\t', '\t'), ('n', '\n'),
    ('v', '\x0b'), ('f', '\x0c'), ('r', '\r'), ('e', '\x1b'), (' ', ' '), ('"', '"'), ('/', '/'),
    ('\\', '\\'), ('\x27', '\x27'), ('N', '\u0085'), ('_', '\u00a0'), ('L', '\u2028'),
    ('P', '\u2029')]

/-- The numbers of hexadecimal digits behind the letters that spell a character by its code. -/
def codeLengths : List (Char × Nat) :=
  [('x', 2), ('u', 4), ('U', 8)]

/-- What stands behind a backslash: a letter, a code, or the end of a line that is continued. -/
def readEscape : Source → Option (List Char × Source)
  | [] => none
  | next :: rest =>
    if next.char = '\n' then some ([], rest.dropWhile fun placed => isBlank placed.char)
    else
      match escapes.lookup next.char, codeLengths.lookup next.char with
      | some c, _ => some ([c], rest)
      | none, some length =>
        (Numeral.digits? 16 (Source.chars (rest.take length))).map fun code =>
          ([Char.ofNat code], rest.drop length)
      | none, none => none

/-- The text up to a double quote. The first argument bounds its length. -/
def readDoubleQuoted : Nat → List Char → Source → Option (List Char × Source)
  | 0, _, _ => none
  | _ + 1, _, [] => none
  | fuel + 1, gap, next :: rest =>
    if isGap next.char then readDoubleQuoted fuel (gap ++ [next.char]) rest
    else if next.char = '"' then some (foldGap gap, rest)
    else do
      let (part, rest) ← if next.char = '\\' then readEscape rest else some ([next.char], rest)
      let (text, after) ← readDoubleQuoted fuel [] rest
      return (foldGap gap ++ part ++ text, after)

/-- The quoted or plain scalar at the front of a source. -/
def readScalar (context : Context) (source : Source) : Option ((List Char × Style) × Source) :=
  match source with
  | [] => some (([], .plain), [])
  | next :: rest =>
    if next.char = '"' then
      (readDoubleQuoted (source.length + 1) [] rest).map fun (text, rest) => ((text, .quoted), rest)
    else if next.char = '\x27' then
      (readSingleQuoted [] rest).map fun (text, rest) => ((text, .quoted), rest)
    else
      let (text, rest) := readPlain context [] source source
      some ((text, .plain), rest)

/-! ### Blocks of lines -/

/-- Which line ends are kept at the end of a block. -/
inductive Chomping where
  | strip
  | clip
  | keep
  deriving DecidableEq, Repr

/-- The chomping that the first line of a block asks for. -/
def Chomping.ofHeader (header : List Char) : Chomping :=
  if '-' ∈ header then .strip else if '+' ∈ header then .keep else .clip

/-- The column where the lines of a block begin. The first line may give the depth below the lines
around; otherwise the first line with something on it shows the column. -/
def blockIndent (least : Nat) (header : List Char) (lines : List Source) : Nat :=
  match header.find? Char.isDigit with
  | some digit => least - 1 + (digit.toNat - '0'.toNat)
  | none =>
    let (blank, others) := lines.span Source.isBlankLine
    max (max least 1) (((others.take 1 ++ blank).map Source.indent).foldl max 0)

/-- Whether a text starts with a blank. -/
def startsBlank (text : List Char) : Bool :=
  text.head?.any isBlank

/-- What stands between a line of a folded block and the lines after it. A single line end between
two lines that are not indented further is a space. -/
def foldBreak (line : List Char) (below : List (List Char)) : List Char :=
  if line.isEmpty || startsBlank line ||
      (below.find? fun other => !other.isEmpty).any startsBlank then ['\n']
  else if below.head? = some [] then []
  else [' ']

/-- The lines of a folded block as one text. -/
def foldLines : List (List Char) → List Char
  | [] => []
  | [line] => line
  | line :: below => line ++ foldBreak line below ++ foldLines below

/-- The lines of a literal block as one text. -/
def joinLines : List (List Char) → List Char
  | [] => []
  | [line] => line
  | line :: below => line ++ '\n' :: joinLines below

/-- The block of lines behind its mark at the front of a source. -/
def readBlockScalar (style : Style) (least : Nat) (source : Source) : List Char × Source :=
  let (header, below) := Source.firstLine source
  let header := (Source.chars header).takeWhile fun c => !isBlank c
  let lines := Source.lines (below.drop 1)
  let indent := blockIndent least header lines
  let (own, others) := lines.span fun line =>
    Source.isBlankLine line || decide (indent ≤ Source.indent line)
  let texts := own.map fun line => (Source.chars (line.drop indent)).filter (· != '\n')
  let last := texts.reverse.takeWhile List.isEmpty
  let texts := texts.take (texts.length - last.length)
  let text := if style = .folded then foldLines texts else joinLines texts
  let ending := match Chomping.ofHeader header with
    | .strip => []
    | .clip => if texts.isEmpty then [] else ['\n']
    | .keep => List.replicate (if texts.isEmpty then last.length else last.length + 1) '\n'
  (text ++ ending, others.flatten)

end Sicxe.Yaml
