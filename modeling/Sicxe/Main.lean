import Sicxe.CommandLine.Tool

/-!
# The program

Runs the tool that the first word names with the words after it.
-/

namespace Sicxe.CommandLine

/-- An error of the operating system as an error of a file. -/
def FileError.ofSystem : IO.Error → FileError
  | .noFileOrDirectory .. => .notFound
  | .invalidArgument _ 36 _ => .nameTooLong
  | .inappropriateType _ code _ => if code = 21 then .isDirectory else .notDirectory
  | error => .other (toString error)

instance : Console IO where
  readFile name := do
    try
      return .ok (← IO.FS.readFile name)
    catch error =>
      return .error (.ofSystem error)
  writeFile name content := do
    try
      IO.FS.writeFile name content
      return .ok ()
    catch error =>
      return .error (.ofSystem error)
  print text := IO.print text
  pause milliseconds := IO.sleep (UInt32.ofNat milliseconds)

end Sicxe.CommandLine

open Sicxe.CommandLine

/-- Runs a tool. -/
def main (words : List String) : IO UInt32 := do
  match words with
  | [] =>
    IO.eprintln "usage: sicasm | siclink | sicemu, then the arguments of the tool"
    return UInt32.ofNat Tool.usageError
  | name :: arguments =>
    match Tool.parse? name with
    | none =>
      IO.eprintln ("unknown tool: " ++ name)
      return UInt32.ofNat Tool.usageError
    | some tool =>
      let exitCode ← tool.run arguments
      return UInt32.ofNat exitCode
