import Sicxe.CommandLine.Assembler
import Sicxe.Link.Linker
import Sicxe.Object.Text.Parser

/-!
# The linker command

Links object files into one and lists the symbols of the result.
-/

namespace Sicxe.CommandLine

/-- What the linker is asked to do. -/
structure LinkerOptions where
  inputs : List String
  output : String
  mode : LinkMode
  deriving DecidableEq, Repr

namespace LinkerOptions

/-- The options of the linker. -/
def specs : List OptionSpec :=
  [{ name := "output", letter := some 'o', takesValue := true },
    { name := "mode", letter := some 'm', takesValue := true }]

/-- The mode with a name. -/
def parseMode (text : String) : Option LinkMode :=
  [LinkMode.absolute, .relocatable].find? fun mode => mode.name == text

/-- The options that a command line spells. There must be an input. -/
def parse (words : List String) : Option LinkerOptions := do
  let arguments ← Arguments.parse specs words
  let mode ← parseMode ((arguments.value? "mode").getD LinkMode.absolute.name)
  if arguments.positional.isEmpty then none
  else
    some
      { inputs := arguments.positional
        output := (arguments.value? "output").getD "a.obj"
        mode }

end LinkerOptions

/-- The report of an error, with the cause inside a module behind it. -/
def linkReport (error : LinkError) : String :=
  match error with
  | .object _ cause => Diagnostic.heading (error.message ++ ": " ++ cause.message)
  | _ => Diagnostic.heading error.message

/-- The rows of the symbols and open imports of a linked program. -/
def symbolRows (object : Object) : String :=
  String.join (object.symbols.exported.map fun symbol =>
    Text.render [.colored .green ("0x" ++ Hex.text 6 symbol.address.toNat)] ++ " " ++
      symbol.name ++ "\n") ++
  String.join (object.imports.map fun name =>
    Text.render [.colored .red "????????"] ++ " " ++ name ++ "\n")

section

variable {m : Type → Type} [Monad m] [Console m]

/-- Reads the modules in some files; none if one of them fails, which is reported. -/
def readModules : List String → m (Option (List Object))
  | [] => return some []
  | path :: rest => do
    Console.print ("  < " ++ path ++ "\n")
    match ← Console.readFile path with
    | .error error =>
      Console.print (fileReport "open" path error)
      return none
    | .ok text =>
      match Object.ofText text with
      | .error error =>
        Console.print (linkReport (.object path error))
        return none
      | .ok object => return (← readModules rest).map fun objects => object :: objects

/-- Runs the linker and returns its exit code. -/
def runLinker (options : LinkerOptions) : m Nat := do
  Console.print ("SIC/XE Linker (" ++ options.mode.name ++ " mode)\n")
  match ← readModules options.inputs with
  | none => return 1
  | some modules =>
    match Object.link modules options.mode with
    | .error error =>
      Console.print (linkReport error)
      return 1
    | .ok object =>
      Console.print ("  > " ++ options.output ++ "\n")
      match ← Console.writeFile options.output object.toText with
      | .error error =>
        Console.print (fileReport "write" options.output error)
        return 1
      | .ok () =>
        Console.print (symbolRows object)
        return 0

end

end Sicxe.CommandLine
