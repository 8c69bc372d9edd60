/-!
# Styled text

Text for a terminal: spans with a colour and a weight each, rendered with ANSI escapes. An escape
is written only where the style changes from one span to the next, the colour before the weight,
and the plain style is restored at the end.
-/

namespace Sicxe.Text

/-- A foreground colour. -/
inductive Color where
  | red
  | green
  | yellow
  | blue
  | cyan
  deriving DecidableEq, Repr

/-- The escape parameter that selects a colour. -/
def Color.code : Color → Nat
  | red => 31
  | green => 32
  | yellow => 33
  | blue => 34
  | cyan => 36

/-- How a span looks. -/
structure Style where
  color : Option Color := none
  bold : Bool := false
  underline : Bool := false
  deriving DecidableEq, Repr

/-- A text in one style. -/
structure Span where
  style : Style
  text : String
  deriving DecidableEq, Repr

namespace Span

/-- A span without colour or weight. -/
def plain (text : String) : Span := ⟨{}, text⟩

/-- A span in a colour. -/
def colored (color : Color) (text : String) : Span := ⟨{ color := some color }, text⟩

/-- A span in bold letters. -/
def bold (text : String) : Span := ⟨{ bold := true }, text⟩

/-- An underlined span. -/
def underlined (text : String) : Span := ⟨{ underline := true }, text⟩

/-- A span in bold red letters, for what demands attention. -/
def alarm (text : String) : Span := ⟨{ color := some .red, bold := true }, text⟩

end Span

/-- The escape sequence with one parameter. -/
def escape (parameter : Nat) : String :=
  "\x1b[" ++ toString parameter ++ "m"

/-- The escapes that lead from one style to another. -/
def Style.change (before after : Style) : String :=
  let color := if before.color = after.color then "" else
    escape (after.color.elim 39 Color.code)
  let bold := if before.bold = after.bold then "" else escape (if after.bold then 1 else 22)
  let underline := if before.underline = after.underline then "" else
    escape (if after.underline then 4 else 24)
  color ++ bold ++ underline

/-- The text of a sequence of spans that begins in the style `current`. -/
def renderFrom (current : Style) : List Span → String
  | [] => current.change {}
  | span :: rest => current.change span.style ++ span.text ++ renderFrom span.style rest

/-- The text of a sequence of spans. -/
def render (spans : List Span) : String :=
  renderFrom {} spans

/-- A text filled up with blanks on the right to `width` characters. -/
def padRight (width : Nat) (text : String) : String :=
  text ++ String.ofList (List.replicate (width - text.length) ' ')

/-- A text filled up with blanks on the left to `width` characters. -/
def padLeft (width : Nat) (text : String) : String :=
  String.ofList (List.replicate (width - text.length) ' ') ++ text

end Sicxe.Text
