import Sicxe.Instruction.Basic
import Sicxe.Text.Hex
import Sicxe.Text.Style

/-!
# Instructions in listings

The styled text of an instruction: its name in seven places, then its fields.
-/

namespace Sicxe.Instruction

open Text

/-- The mnemonic of an instruction; an opcode without one is shown after a question mark. -/
def displayName (instruction : Instruction) : String :=
  match instruction.operation? with
  | some operation => operation.mnemonic.name
  | none => "?" ++ Hex.text 2 instruction.opcode.toNat

/-- The mark of immediate or indirect addressing. -/
def addressingMark (flags : Flags) : String :=
  match flags.addressing with
  | .immediate => "#"
  | .indirect => "@"
  | .simple => ""

/-- The mark of the register that a displacement is relative to. -/
def relativeMark (flags : Flags) : String :=
  if flags.b then "(B)" else if flags.p then "(PC)" else ""

/-- The mark of indexed addressing. -/
def indexMark (indexed : Bool) : String :=
  if indexed then ",X" else ""

/-- The spans of an instruction in a listing. -/
def spans (instruction : Instruction) : List Span :=
  let name := .colored .red (padRight 7 instruction.displayName)
  match instruction with
  | plain _ => [name]
  | registers _ first second => [name, .colored .blue (toString first ++ "," ++ toString second)]
  | relative _ flags displacement =>
    [name, .colored .blue (addressingMark flags),
      .colored .yellow ("0x" ++ Hex.text 3 displacement),
      .colored .blue (relativeMark flags ++ indexMark flags.x)]
  | extended _ flags address =>
    [.colored .red ("+" ++ padRight 6 instruction.displayName),
      .colored .blue (addressingMark flags), .colored .yellow ("0x" ++ Hex.text 5 address),
      .colored .blue (indexMark flags.x)]
  | simple _ indexed address =>
    [name, .colored .yellow ("0x" ++ Hex.text 4 address), .colored .blue (indexMark indexed)]

/-- The styled text of an instruction. -/
def display (instruction : Instruction) : String :=
  render instruction.spans

end Sicxe.Instruction
