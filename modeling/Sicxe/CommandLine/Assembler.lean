import Sicxe.Assembly.Encoding
import Sicxe.Assembly.Listing
import Sicxe.CommandLine.Arguments
import Sicxe.CommandLine.Files
import Sicxe.Object.Text.Printer

/-!
# The assembler command

Assembles each of its files by itself and writes the object text next to it. A file that fails does
not keep the others from being assembled.
-/

namespace Sicxe.CommandLine

/-- An operation on a file that failed. -/
def fileReport (action name : String) (error : FileError) : String :=
  Diagnostic.heading ("Failed to " ++ action ++ " file: " ++ name ++ ": " ++ error.message)

/-- What the assembler is asked to do. -/
structure AssemblerOptions where
  inputs : List String
  /-- The name of the object file. -/
  output : Option String
  /-- A listing is wanted. -/
  dump : Bool
  deriving DecidableEq, Repr

namespace AssemblerOptions

/-- The options of the assembler. -/
def specs : List OptionSpec :=
  [{ name := "output", letter := some 'o', takesValue := true },
    { name := "dump", letter := some 'd' }]

/-- The options that a command line spells. There must be an input. -/
def parse (words : List String) : Option AssemblerOptions := do
  let arguments ← Arguments.parse specs words
  if arguments.positional.isEmpty then none
  else
    some
      { inputs := arguments.positional
        output := arguments.value? "output"
        dump := arguments.has "dump" }

end AssemblerOptions

section

variable {m : Type → Type} [Monad m] [Console m]

/-- Assembles one file and tells whether it succeeded. -/
def assembleFile (path output : String) (dump : Bool) : m Bool := do
  Console.print ("  < " ++ path ++ "\n")
  match ← Console.readFile path with
  | .error error =>
    Console.print (fileReport "open" path error)
    return false
  | .ok source =>
    match assemble source with
    | .error diagnostic =>
      Console.print (diagnostic.report path (Text.stringLines source))
      return false
    | .ok (placement, object) =>
      if dump then
        Console.print (placement.listing object path)
      Console.print ("  > " ++ output ++ "\n")
      match ← Console.writeFile output object.toText with
      | .error error =>
        Console.print (fileReport "write" output error)
        return false
      | .ok () => return true

/-- Runs the assembler and returns its exit code. -/
def runAssembler (options : AssemblerOptions) : m Nat := do
  Console.print "SIC/XE Assembler\n"
  if options.output.isSome && options.inputs.length > 1 then
    Console.print (Diagnostic.heading "--output needs a single input file")
    return 1
  else
    let results ← options.inputs.mapM fun path =>
      assembleFile path (options.output.getD (withExtension path "obj")) options.dump
    return if results.all id then 0 else 1

end

end Sicxe.CommandLine
