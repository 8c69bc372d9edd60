/-!
# Nested data

What a YAML document describes: scalars, sequences and mappings. A scalar keeps how it was written,
because a quoted text is never read as a number or a truth value.
-/

namespace Sicxe.Yaml

/-- How a scalar is written. -/
inductive Style where
  | plain
  | quoted
  /-- A block of lines that stand for themselves. -/
  | literal
  /-- A block of lines that are joined. -/
  | folded
  deriving DecidableEq, Repr

/-- A piece of nested data. -/
inductive Node where
  | scalar (text : List Char) (style : Style) (tag : List Char)
  | sequence (items : List Node)
  | mapping (entries : List (Node × Node))

namespace Node

/-- The node where nothing is written. -/
def empty : Node :=
  .scalar [] .plain []

/-- The plain words for a value that is not there. -/
def nullWords : List String :=
  ["", "~", "null", "Null", "NULL"]

/-- Whether a node holds no value. -/
def isEmpty : Node → Bool
  | .scalar text style _ => style == .plain && nullWords.any fun word => word.toList == text
  | _ => false

/-- The text of a scalar. -/
def text? : Node → Option (List Char)
  | .scalar text _ _ => some text
  | _ => none

/-- The text of a scalar that is read as a value of the type `tag`: a plain one, or a literal one
that has the tag. -/
def textOf? (tag : String) : Node → Option (List Char)
  | .scalar text .plain _ => some text
  | .scalar text .literal given => if given = tag.toList then some text else none
  | _ => none

/-- The items of a sequence, which has none if there is no value. -/
def items? : Node → Option (List Node)
  | .sequence items => some items
  | node => if node.isEmpty then some [] else none

end Node

end Sicxe.Yaml
