import Sicxe.Text.Yaml.Scalar

/-!
# Nodes between brackets

Reading scalars, aliases, and the sequences and mappings that are written in brackets. An anchor
names the node behind it, and an alias stands for the last node with its name.
-/

namespace Sicxe.Yaml

/-! ### The state of a reader -/

/-- What is left to be read, and the nodes that have names, the last one first. -/
structure Reading where
  source : Source
  anchors : List (List Char × Node) := []

/-- Reads something from a source, or fails. -/
abbrev Reader := StateT Reading Option

namespace Reader

/-- What is left to be read. -/
def rest : Reader Source := do
  return (← get).source

/-- Goes on at another place. -/
def goTo (source : Source) : Reader Unit :=
  modify fun reading => { reading with source }

/-- What is left to be read behind blanks, line ends and comments. -/
def nextWord : Reader Source := do
  goTo (Source.skipGaps false (← rest))
  rest

/-- Reads what stands at the front of the source. -/
def take {α : Type} (read : Source → Option (α × Source)) : Reader α := do
  match read (← rest) with
  | none => failure
  | some (value, source) =>
    goTo source
    return value

/-- Reads the characters at the front that have a property. -/
def takeWhile (property : Char → Bool) : Reader (List Char) :=
  take fun source =>
    let (front, rest) := source.span fun placed => property placed.char
    some (Source.chars front, rest)

end Reader

/-! ### Properties -/

/-- What is written in front of a node. -/
structure Properties where
  anchor : Option (List Char) := none
  tag : List Char := []
  deriving DecidableEq, Repr

/-- Whether a character may be in the name of an anchor. -/
def isNameChar (c : Char) : Bool :=
  c.isAlphanum || c == '_' || c == '-'

/-- Reads one more property at the front of the source. -/
def Properties.read (properties : Properties) : Reader Properties := do
  match ← Reader.rest with
  | [] => failure
  | next :: rest =>
    if next.char = '&' then
      Reader.goTo rest
      return { properties with anchor := some (← Reader.takeWhile isNameChar) }
    else
      return { properties with tag := ← Reader.takeWhile fun c => !isGap c && !isFlowMark c }

/-- A node behind its properties, which is from now on known by its name. -/
def Properties.keep (properties : Properties) (node : Node) : Reader Node := do
  match properties.anchor with
  | none => return node
  | some name =>
    modify fun reading => { reading with anchors := (name, node) :: reading.anchors }
    return node

/-- The node that an alias at the front of the source stands for. -/
def readAlias : Reader Node := do
  Reader.goTo ((← Reader.rest).drop 1)
  let name ← Reader.takeWhile isNameChar
  match (← get).anchors.lookup name with
  | some node => return node
  | none => failure

/-! ### Nodes -/

/-- Whether a node between brackets is left out before a character. -/
def endsFlowNode (context : Context) (c : Char) : Bool :=
  context == .flow && (c == ',' || c == ':' || c == ']' || c == '\x7d')

mutual

/-- A node without lines of its own: an alias, a scalar, or a node in brackets. The first argument
bounds the number of brackets and items. -/
def readNode : Nat → Context → Properties → Reader Node
  | 0, _, _ => failure
  | fuel + 1, context, properties => do
    match ← Reader.nextWord with
    | [] => failure
    | next :: rest =>
      if next.char = '&' || next.char = '!' then
        readNode fuel context (← properties.read)
      else if next.char = '*' then readAlias
      else if next.char = '[' then
        Reader.goTo rest
        properties.keep (.sequence (← readItems fuel))
      else if next.char = '\x7b' then
        Reader.goTo rest
        properties.keep (.mapping (← readEntries fuel))
      else if endsFlowNode context next.char then
        properties.keep (.scalar [] .plain properties.tag)
      else
        let (text, style) ← Reader.take (readScalar context)
        properties.keep (.scalar text style properties.tag)

/-- A key and its value between brackets. There is no value if neither a question mark stands in
front of the key nor a colon behind it. -/
def readEntry : Nat → Reader (Node × Option Node)
  | 0 => failure
  | fuel + 1 => do
    match ← Reader.nextWord with
    | [] => failure
    | next :: rest =>
      if next.char = '?' then Reader.goTo rest
      let key ← readNode fuel .flow {}
      match ← Reader.nextWord with
      | [] => failure
      | after :: rest =>
        if after.char = ':' then
          Reader.goTo rest
          return (key, some (← readNode fuel .flow {}))
        else return (key, if next.char = '?' then some .empty else none)

/-- The items of a sequence up to its closing bracket. An entry with a value is a mapping. -/
def readItems : Nat → Reader (List Node)
  | 0 => failure
  | fuel + 1 => do
    match ← Reader.nextWord with
    | [] => failure
    | next :: rest =>
      if next.char = ']' then
        Reader.goTo rest
        return []
      else
        let item ← match ← readEntry fuel with
          | (node, none) => pure node
          | (key, some value) => pure (.mapping [(key, value)])
        match ← Reader.nextWord with
        | [] => failure
        | after :: rest =>
          if after.char = ',' then Reader.goTo rest
          else if after.char ≠ ']' then failure
          return item :: (← readItems fuel)

/-- The entries of a mapping up to its closing bracket. -/
def readEntries : Nat → Reader (List (Node × Node))
  | 0 => failure
  | fuel + 1 => do
    match ← Reader.nextWord with
    | [] => failure
    | next :: rest =>
      if next.char = '\x7d' then
        Reader.goTo rest
        return []
      else
        let (key, value) ← readEntry fuel
        match ← Reader.nextWord with
        | [] => failure
        | after :: rest =>
          if after.char = ',' then Reader.goTo rest
          else if after.char ≠ '\x7d' then failure
          return (key, value.getD .empty) :: (← readEntries fuel)

end

end Sicxe.Yaml
