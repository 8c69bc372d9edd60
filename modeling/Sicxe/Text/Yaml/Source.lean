/-!
# Characters in columns

What a reader of indented text works on: the characters that are left, each with the column it
stands in. Lines end with `'\n'`.
-/

namespace Sicxe.Yaml

/-- A character and its column. -/
structure Placed where
  char : Char
  column : Nat
  deriving DecidableEq, Repr

/-- The characters that are left to be read. -/
abbrev Source := List Placed

/-- Whether a character is a blank inside a line. -/
def isBlank (c : Char) : Bool :=
  c == ' ' || c == '\t'

/-- Whether a character separates words. -/
def isGap (c : Char) : Bool :=
  isBlank c || c == '\n'

namespace Source

/-- The characters of a text, the first one in a column. -/
def place (column : Nat) : List Char → Source
  | [] => []
  | c :: rest => ⟨c, column⟩ :: place (if c = '\n' then 0 else column + 1) rest

theorem place_length (column : Nat) (text : List Char) :
    (place column text).length = text.length := by
  induction text generalizing column with
  | nil => rfl
  | cons c rest ih => simp [place, ih]

/-- The characters without their columns. -/
def chars (source : Source) : List Char :=
  source.map fun placed => placed.char

/-- Whether a word ends here. -/
def atWordEnd : Source → Bool
  | [] => true
  | next :: _ => isGap next.char

/-- Whether the word here is a single character. -/
def atMark (mark : Char) : Source → Bool
  | [] => false
  | next :: rest => next.char == mark && atWordEnd rest

/-- The source behind the blanks, line ends and comments at its front. -/
def skipGaps (inComment : Bool) : Source → Source
  | [] => []
  | next :: rest =>
    if next.char = '\n' then skipGaps false rest
    else if inComment || next.char == '#' then skipGaps true rest
    else if isBlank next.char then skipGaps false rest
    else next :: rest

/-- The line at the front and the lines below it with the end of this one. -/
def firstLine (source : Source) : Source × Source :=
  source.span fun placed => placed.char != '\n'

/-- The lines of a source, each with its end. -/
def lines : Source → List Source
  | [] => []
  | next :: rest =>
    if next.char = '\n' then [next] :: lines rest
    else
      match lines rest with
      | [] => [[next]]
      | line :: others => (next :: line) :: others

/-- The lines make up the source. -/
theorem lines_flatten (source : Source) : (lines source).flatten = source := by
  induction source with
  | nil => rfl
  | cons next rest ih =>
    by_cases ends : next.char = '\n'
    · simp [lines, ends, ih]
    · cases split : lines rest with
      | nil => simp_all [lines]
      | cons line others => simp_all [lines]

/-- The number of spaces at the front of a line. -/
def indent (line : Source) : Nat :=
  (line.takeWhile fun placed => placed.char == ' ').length

/-- Whether a line has nothing but spaces. -/
def isBlankLine (line : Source) : Bool :=
  line.all fun placed => placed.char == ' ' || placed.char == '\n'

end Source

end Sicxe.Yaml
