import Sicxe.CommandLine.Assembler
import Sicxe.CommandLine.Emulator
import Sicxe.CommandLine.Linker

/-!
# The tools

The three commands behind one entry: each reads its own arguments and returns an exit code.
-/

namespace Sicxe.CommandLine

/-- A command of the toolchain. -/
inductive Tool where
  | assembler
  | linker
  | emulator
  deriving DecidableEq, Repr

namespace Tool

/-- The name by which a tool is called. -/
def name : Tool → String
  | assembler => "sicasm"
  | linker => "siclink"
  | emulator => "sicemu"

/-- The tool with a name. -/
def parse? (text : String) : Option Tool :=
  [assembler, linker, emulator].find? fun tool => tool.name == text

/-- The exit code for arguments that a tool does not understand. -/
def usageError : Nat := 2

/-- Runs a tool with its arguments and returns its exit code. -/
def run {m : Type → Type} [Monad m] [Console m] (tool : Tool) (words : List String) : m Nat :=
  match tool with
  | assembler => (AssemblerOptions.parse words).elim (pure usageError) runAssembler
  | linker => (LinkerOptions.parse words).elim (pure usageError) runLinker
  | emulator => (EmulatorOptions.parse words).elim (pure usageError) runEmulator

/-- Runs a tool on a directory value. -/
def runOn (tool : Tool) (words : List String) (directory : Directory) : Nat × Session :=
  (tool.run words : StateM Session Nat).run { directory }

end Tool

end Sicxe.CommandLine
