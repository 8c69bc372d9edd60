import Sicxe.Text.Yaml.Flow

/-!
# Nodes on lines

Reading the sequences and mappings that are written one item or entry a line. All items of a
sequence and all entries of a mapping begin in one column, and what belongs to one of them stands
further right; only a sequence may stand in the column of the key that it belongs to.
-/

namespace Sicxe.Yaml

/-- A key that stands with its colon on one line. -/
def readKey (fuel : Nat) : Reader Node := do
  let (line, below) := Source.firstLine (← Reader.rest)
  Reader.goTo line
  let key ← readNode fuel (.block 0) {}
  let rest := (← Reader.rest).dropWhile fun placed => isBlank placed.char
  if Source.atMark ':' rest then
    Reader.goTo (rest.drop 1 ++ below)
    return key
  else failure

/-- Whether an entry of a mapping begins at the front of the source. -/
def startsEntry (fuel : Nat) : Reader Bool := do
  let reading ← get
  return Source.atMark '?' reading.source || ((readKey fuel).run reading).isSome

mutual

/-- The node at the front of the source. Its lines begin at the column `least` or further right, its
items at `leastItem`; if the next word stands further left, the node is empty. The first argument
bounds the number of nodes and entries. -/
def readBlock : Nat → Nat → Nat → Properties → Reader Node
  | 0, _, _, _ => failure
  | fuel + 1, least, leastItem, properties => do
    let source ← Reader.nextWord
    match source with
    | [] => properties.keep (.scalar [] .plain properties.tag)
    | next :: rest =>
      if Source.atMark '-' source && leastItem ≤ next.column then
        properties.keep (.sequence (← readBlockItems fuel next.column))
      else if next.column < least then
        properties.keep (.scalar [] .plain properties.tag)
      else if ← startsEntry fuel then
        properties.keep (.mapping (← readBlockEntries fuel next.column))
      else if next.char = '&' || next.char = '!' then
        readBlock fuel least leastItem (← properties.read)
      else if next.char = '|' || next.char = '>' then
        Reader.goTo rest
        let style := if next.char = '|' then Style.literal else .folded
        let text ← Reader.take fun source => some (readBlockScalar style least source)
        properties.keep (.scalar text style properties.tag)
      else readNode fuel (.block least) properties

/-- The items of a sequence that begin in a column. -/
def readBlockItems : Nat → Nat → Reader (List Node)
  | 0, _ => failure
  | fuel + 1, column => do
    let source ← Reader.nextWord
    if Source.atMark '-' source && source.head?.any (·.column == column) then
      Reader.goTo (source.drop 1)
      let item ← readBlock fuel (column + 1) (column + 1) {}
      return item :: (← readBlockItems fuel column)
    else return []

/-- The entries of a mapping that begin in a column. -/
def readBlockEntries : Nat → Nat → Reader (List (Node × Node))
  | 0, _ => failure
  | fuel + 1, column => do
    let source ← Reader.nextWord
    if source.head?.any (·.column == column) then
      let key ←
        if Source.atMark '?' source then
          Reader.goTo (source.drop 1)
          readBlock fuel (column + 1) column {}
        else readKey fuel
      let value ←
        if Source.atMark '?' source then
          let after ← Reader.nextWord
          if Source.atMark ':' after && after.head?.any (·.column == column) then
            Reader.goTo (after.drop 1)
            readBlock fuel (column + 1) column {}
          else pure .empty
        else readBlock fuel (column + 1) column {}
      return (key, value) :: (← readBlockEntries fuel column)
    else return []

end

end Sicxe.Yaml
