import Sicxe.CommandLine.Arguments
import Sicxe.CommandLine.Files
import Sicxe.Assembly.Error
import Sicxe.Machine.Loading
import Sicxe.Machine.Monitor
import Sicxe.Machine.Snapshot
import Sicxe.Object.Text.Parser

/-!
# The emulator command

Loads an object file into a machine, runs it with the monitors that are asked for, and ends with a
snapshot of the machine.
-/

namespace Sicxe.CommandLine

/-- Why the emulator cannot start or go on. -/
inductive EmulatorError where
  | machine (error : MachineError)
  | fileOpen (name : String) (error : FileError)
  /-- The file with the configuration of the watch points is there but cannot be read. -/
  | watchFile (name : String) (error : FileError)
  /-- The configuration of the watch points is not one. -/
  | watchConfig (name : String)
  deriving DecidableEq, Repr

/-- The text of the error. -/
def EmulatorError.message : EmulatorError → String
  | machine error => error.message
  | fileOpen name error => "Failed to open file: " ++ name ++ ": " ++ error.message
  | watchFile name error => "Failed to read dump config " ++ name ++ ": " ++ error.message
  | watchConfig name => "Failed to read dump config " ++ name ++ ": not a list of watch points"

/-- What the emulator is asked to do. -/
structure EmulatorOptions where
  input : String
  base : Option UInt32
  memory : Nat
  /-- The greatest number of instructions. -/
  limit : Option Nat
  /-- The pause between two instructions in milliseconds. -/
  delay : Option Nat
  watchFile : Option String
  watchAll : Bool
  trace : Bool
  deriving DecidableEq, Repr

namespace EmulatorOptions

/-- The options of the emulator. -/
def specs : List OptionSpec :=
  [{ name := "base", letter := some 'b', takesValue := true },
    { name := "memory", letter := some 'm', takesValue := true },
    { name := "tmax", letter := some 't', takesValue := true },
    { name := "delay-ms", takesValue := true },
    { name := "dump-cfg", letter := some 'd', takesValue := true },
    { name := "dump-all", letter := some 'a' },
    { name := "trace" }]

/-- An address of 32 bits, decimal or hexadecimal after `0x`. -/
def readAddress (text : String) : Option UInt32 :=
  let number := match text.toList with
    | '0' :: 'x' :: digits | '0' :: 'X' :: digits => Numeral.natural? 16 Numeral.wordBound digits
    | digits => Numeral.natural? 10 Numeral.wordBound digits
  number.map UInt32.ofNat

/-- A decimal number of 64 bits. -/
def readNumber (text : String) : Option Nat :=
  Numeral.natural? 10 Numeral.longBound text.toList

/-- The value of an option that may be absent; none if it is there and cannot be read. -/
def readValue {α : Type} (arguments : Arguments) (name : String) (read : String → Option α) :
    Option (Option α) :=
  match arguments.value? name with
  | none => some none
  | some text => (read text).map some

/-- The options that a command line spells. There must be one input. -/
def parse (words : List String) : Option EmulatorOptions := do
  let arguments ← Arguments.parse specs words
  let base ← readValue arguments "base" readAddress
  let memory ← readValue arguments "memory" readNumber
  let limit ← readValue arguments "tmax" readNumber
  let delay ← readValue arguments "delay-ms" readNumber
  match arguments.positional with
  | [input] =>
    some
      { input, base, limit, delay
        memory := memory.getD Memory.defaultSize
        watchFile := arguments.value? "dump-cfg"
        watchAll := arguments.has "dump-all"
        trace := arguments.has "trace" }
  | _ => none

end EmulatorOptions

section

variable {m : Type → Type} [Monad m] [Console m]

/-- Loads the object file with a name. -/
def loadFile (machine : Machine) (name : String) (base : Option UInt32) :
    m (Except EmulatorError (Machine × LoadReport)) := do
  match ← Console.readFile name with
  | .error error => return .error (.fileOpen name error)
  | .ok text =>
    match Object.ofText text with
    | .error error => return .error (.machine (.object error))
    | .ok object => return (machine.load object base).mapError .machine

/-- Reads the watch points of a file, if there is one. A directory can be opened like a file and
fails only when it is read. -/
def readWatchPoints : Option String → m (Except EmulatorError (List (Nat × WatchPoint)))
  | none => return .ok []
  | some name => do
    match ← Console.readFile name with
    | .error .isDirectory => return .error (.watchFile name .isDirectory)
    | .error error => return .error (.fileOpen name error)
    | .ok text =>
      match WatchPoint.parseAll text with
      | some points => return .ok points
      | none => return .error (.watchConfig name)

/-- Reports an error and returns the exit code of a failure. -/
def failWith (error : EmulatorError) : m Nat := do
  Console.print (Diagnostic.heading error.message)
  return 1

/-- The rows that tell how a run ended, and the exit code. -/
def outcomeReport (steps : Nat) : Except MachineError Outcome → String × Nat
  | .ok .halted => ("[HALT] after " ++ toString steps ++ " steps\n", 0)
  | .ok .stopped => ("[STOP] interrupted after " ++ toString steps ++ " steps\n", 0)
  | .ok .stepLimit => ("[STOP] step limit reached\n", 0)
  | .error error => (Diagnostic.heading error.message, 1)

/-- Runs a loaded machine and returns the exit code. The pauses between the instructions are taken
together when the run is over. -/
def runLoaded (options : EmulatorOptions) (machine : Machine) : m Nat := do
  Console.print "[INIT]\n"
  match ← readWatchPoints options.watchFile with
  | .error error => failWith error
  | .ok watchPoints =>
    let monitor : Monitor :=
      { trace := options.trace, watchAll := options.watchAll, watchFile := options.watchFile
        watchPoints }
    let finished := monitor.run machine (options.limit.getD Machine.unlimited)
    Console.print finished.observed
    Console.pause (options.delay.getD 0 * (finished.machine.steps - machine.steps))
    Console.print (String.ofList (List.replicate 49 '=') ++ "\n")
    let (report, exitCode) := outcomeReport finished.machine.steps finished.result
    Console.print report
    Console.print finished.machine.snapshot.report
    return exitCode

/-- Runs the emulator and returns its exit code. -/
def runEmulator (options : EmulatorOptions) : m Nat := do
  let rule := "+-----------------------------------------------+\n"
  Console.print "SIC/XE Emulator\n"
  Console.print (rule ++ "| " ++ Text.padRight 45 options.input ++ " |\n" ++ rule)
  match Machine.create options.memory with
  | .error error => failWith (.machine error)
  | .ok machine =>
    match ← loadFile machine options.input options.base with
    | .error error => failWith error
    | .ok (machine, report) =>
      Console.print ("[LOAD] 0x" ++ Hex.text 6 report.length ++ " bytes at 0x" ++
        Hex.text 6 report.base.toNat ++ ", entry 0x" ++ Hex.text 6 report.entry.toNat ++ "\n")
      runLoaded options machine

end

end Sicxe.CommandLine
