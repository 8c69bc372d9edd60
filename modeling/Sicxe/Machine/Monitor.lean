import Sicxe.Machine.Basic
import Sicxe.Instruction.Display
import Sicxe.Numeral
import Sicxe.Text.Quoted
import Sicxe.Text.Yaml.Document

/-!
# Monitors

What is shown of a run besides its end. A trace has one line for each executed instruction. A
watch shows the registers and words of memory after the instructions at chosen addresses, which
`WatchPoint.parseAll` reads from a configuration, or the registers after every instruction.
-/

namespace Sicxe

/-- What is shown after the instruction at some address. -/
structure WatchPoint where
  registers : Bool := false
  /-- The addresses of the words of memory to be shown. -/
  words : List Nat := []
  deriving DecidableEq, Repr

namespace WatchPoint

/-- A number in a configuration: decimal without a zero in front, or in the radix that `0x`, `0o` or
`0b` tells. -/
def readNumber (node : Yaml.Node) : Option Nat := do
  let text ← node.textOf? "!!int"
  let digits := if text.head? = some '+' then text.drop 1 else text
  let value ← match digits with
    | '0' :: 'x' :: digits => Numeral.digits? 16 digits
    | '0' :: 'o' :: digits => Numeral.digits? 8 digits
    | '0' :: 'b' :: digits => Numeral.digits? 2 digits
    | '0' :: _ :: _ => none
    | digits => Numeral.digits? 10 digits
  if value < Numeral.wordBound then some value else none

/-- A truth value in a configuration. -/
def readFlag (node : Yaml.Node) : Option Bool := do
  let text ← node.textOf? "!!bool"
  if text ∈ ["true".toList, "True".toList, "TRUE".toList] then some true
  else if text ∈ ["false".toList, "False".toList, "FALSE".toList] then some false
  else none

/-- A watch point with one more setting; unknown settings do not count. -/
def readSetting (point : WatchPoint) (setting : Yaml.Node × Yaml.Node) : Option WatchPoint := do
  let name ← setting.1.text?
  if name = "registers".toList then
    let registers ← readFlag setting.2
    return { point with registers }
  else if name = "words".toList then
    let words ← (← setting.2.items?).mapM readNumber
    return { point with words }
  else return point

/-- The names of the settings, in the order in which a sequence gives their values. -/
def settingNames : List Yaml.Node :=
  ["registers", "words"].map fun name => .scalar name.toList .plain []

/-- The watch point that a mapping or a sequence of settings describes. -/
def ofNode (node : Yaml.Node) : Option WatchPoint :=
  match node with
  | .mapping settings => settings.foldlM readSetting {}
  | .sequence values =>
    if values.length ≤ settingNames.length then (settingNames.zip values).foldlM readSetting {}
    else none
  | _ => if node.isEmpty then some {} else none

/-- A watch point with its address. -/
def readPoint (entry : Yaml.Node × Yaml.Node) : Option (Nat × WatchPoint) := do
  return (← readNumber entry.1, ← ofNode entry.2)

/-- The watch points of a configuration by their addresses. Of two points at one address the last
one counts. -/
def parseAll (text : String) : Option (List (Nat × WatchPoint)) :=
  match Yaml.parse text with
  | some (.mapping entries) =>
    (entries.mapM readPoint).map fun points =>
      points.foldl (fun kept point => kept.filter (fun other => other.1 != point.1) ++ [point]) []
  | some node => if node.isEmpty then some [] else none
  | none => none

end WatchPoint

/-- What is shown of a run. -/
structure Monitor where
  trace : Bool := false
  /-- The registers are shown after every instruction. -/
  watchAll : Bool := false
  /-- The file that the watch points come from. -/
  watchFile : Option String := none
  watchPoints : List (Nat × WatchPoint) := []
  deriving DecidableEq, Repr

namespace Monitor

open Text

/-- What is shown before a run. -/
def banner (monitor : Monitor) : String :=
  let trace := if monitor.trace then " * Trace\n" else ""
  let all := if monitor.watchAll then " * Dump all\n" else ""
  let file := match monitor.watchFile with
    | some file => " * Dump[" ++ toString monitor.watchPoints.length ++ "] " ++ quote file ++ "\n"
    | none => ""
  trace ++ all ++ file

/-- The line of an executed instruction. -/
def traceLine (machine : Machine) (step : Step) : String :=
  render [.bold (padLeft 8 (toString machine.steps)), .plain " ",
    .colored .yellow (Hex.text 6 step.pc), .plain (" " ++ step.instruction.display),
    .alarm (if step.halted then " HALT" else "")] ++ "\n"

/-- The table of the registers. -/
def registerTable (registers : Registers) : String :=
  let word (register : Register) := Hex.text 6 (Word.unsigned (registers.get register))
  let rule := " +-------------+-------------+-------------+\n"
  rule ++
    " |  A: " ++ word .A ++ " |  X: " ++ word .X ++ " |  L: " ++ word .L ++ " |\n" ++
    " |  B: " ++ word .B ++ " |  S: " ++ word .S ++ " |  T: " ++ word .T ++ " |\n" ++
    " | PC: " ++ word .PC ++ " | SW: " ++ word .SW ++ " |  F: " ++
      Hex.text 12 (registers.f % 0x1000000000000).toNat ++ "\n" ++
    rule

/-- The row of a word of memory, or why there is none. -/
def wordRow (memory : Memory) (address : Nat) : String :=
  match memory.loadWord address with
  | .ok value =>
    " | " ++ Hex.text 6 address ++ " : " ++ Hex.text 6 (Word.unsigned value) ++
      "                          |\n"
  | .error error => " | " ++ Hex.text 6 address ++ " : " ++ error.message ++ "\n"

/-- The table of some words of memory. -/
def wordTable (memory : Memory) (addresses : List Nat) : String :=
  if addresses.isEmpty then ""
  else
    String.join (addresses.map (wordRow memory)) ++
      " +-----------------------------------------+\n"

/-- What the watch shows after an instruction. -/
def watch (monitor : Monitor) (machine : Machine) (step : Step) : String :=
  let point := (monitor.watchPoints.lookup step.pc).getD {}
  (if point.registers || monitor.watchAll then registerTable machine.registers else "") ++
    wordTable machine.memory point.words

/-- What is shown after an instruction. -/
def observe (monitor : Monitor) (machine : Machine) (step : Step) (shown : String) : String :=
  let shown := if monitor.trace then shown ++ traceLine machine step else shown
  shown ++ monitor.watch machine step

/-- Runs a machine for at most `limit` instructions and shows what the monitor asks for. -/
def run (monitor : Monitor) (machine : Machine) (limit : Nat) : Machine.Finished String :=
  Machine.runWith (fun _ => false) monitor.observe limit machine monitor.banner

end Monitor

end Sicxe
