import Sicxe.Assembly.Expr
import Sicxe.Operation
import Sicxe.Text.Blank

/-!
# Source statements

A source line is cut into words, and the words are read as an optional label, a command and an
operand.

* `Statement.words` cuts a line at its blanks. Quoted text stays in one word, words around a comma
  are joined, and a word that begins with `.` starts a comment.
* `Command.parse` reads an operation or a directive; `+` asks for the extended form.
* `Statement.parse` reads a line. What follows the operand is a comment.
-/

namespace Sicxe

/-- A command to the assembler itself. -/
inductive Directive where
  | START
  | END
  | BYTE
  | WORD
  | RESB
  | RESW
  | BASE
  | NOBASE
  | EQU
  | LTORG
  | EXTDEF
  | EXTREF
  deriving DecidableEq, Repr

namespace Directive

/-- Every directive. -/
def all : List Directive :=
  [START, END, BYTE, WORD, RESB, RESW, BASE, NOBASE, EQU, LTORG, EXTDEF, EXTREF]

/-- A directive as it is written. -/
def name : Directive → String
  | START => "START"
  | END => "END"
  | BYTE => "BYTE"
  | WORD => "WORD"
  | RESB => "RESB"
  | RESW => "RESW"
  | BASE => "BASE"
  | NOBASE => "NOBASE"
  | EQU => "EQU"
  | LTORG => "LTORG"
  | EXTDEF => "EXTDEF"
  | EXTREF => "EXTREF"

/-- The directive with a name, in letters of either case. -/
def parse? (text : List Char) : Option Directive :=
  all.find? fun directive => directive.name.toList == text.map Char.toUpper

end Directive

/-- What a statement asks for. -/
inductive Command where
  /-- An operation, in its extended form if it was written with `+`. -/
  | operation (found : Operation) (extended : Bool)
  | directive (found : Directive)
  deriving DecidableEq, Repr

namespace Command

/-- A command as it is written. -/
def text : Command → String
  | .operation found extended => (if extended then "+" else "") ++ found.mnemonic.name
  | .directive found => found.name

/-- Whether a word begins with `+`, and the word without it. -/
def splitPlus : List Char → Bool × List Char
  | '+' :: rest => (true, rest)
  | word => (false, word)

/-- The command that a word names. Only a memory reference can be extended. -/
def parse (word : List Char) : Except AssemblyError Command :=
  let (extended, name) := splitPlus word
  match Directive.parse? name with
  | some found =>
    if extended then .error (.notExtendable (String.ofList word)) else .ok (directive found)
  | none =>
    match Operation.parse? name with
    | none => .error (.unknownOperation (String.ofList word))
    | some found =>
      if extended && found.format != .three then .error (.notExtendable (String.ofList word))
      else .ok (operation found extended)

/-- Whether a word names a directive or an operation, with or without `+`. -/
def isKeyword (word : List Char) : Bool :=
  let name := (splitPlus word).2
  (Directive.parse? name).isSome || (Operation.parse? name).isSome

/-- Whether the word after a command is its operand. -/
def takesOperand : Command → Bool
  | .operation found _ => found.operand != .none
  | .directive .NOBASE | .directive .LTORG => false
  | .directive _ => true

/-- Whether a command must have an operand. -/
def requiresOperand (command : Command) : Bool :=
  command.takesOperand && command != .directive .END

end Command

/-- A source statement. -/
structure Statement where
  label : Option String
  command : Command
  operand : Option String
  deriving DecidableEq, Repr

namespace Statement

/-- A word in front of a list of words, unless it is empty. -/
def consWord (word : List Char) (words : List (List Char)) : List (List Char) :=
  if word.isEmpty then words else word :: words

/-- The rest of the word that a text begins in, and the words after it. A blank ends a word
outside quotes. -/
def cut (quoted : Bool) : List Char → List Char × List (List Char)
  | [] => ([], [])
  | c :: rest =>
    let quoted := if c = '\'' then !quoted else quoted
    let (word, words) := cut quoted rest
    if Text.isBlank c && !quoted then ([], consWord word words) else (c :: word, words)

/-- The pieces of a line between blanks. -/
def cutWords (line : List Char) : List (List Char) :=
  let (word, words) := cut false line
  consWord word words

/-- The words before the first comment word. -/
def dropComment (words : List (List Char)) : List (List Char) :=
  words.takeWhile fun word => word.head? != some '.'

/-- The words with those that meet at a comma joined. -/
def joinCommas (words : List (List Char)) : List (List Char) :=
  words.foldr (fun word joined =>
    match joined with
    | next :: others =>
      if word.getLast? = some ',' ∨ next.head? = some ',' then (word ++ next) :: others
      else word :: next :: others
    | [] => [word]) []

/-- The words of a line. -/
def words (line : List Char) : List (List Char) :=
  joinCommas (dropComment (cutWords line))

/-- A statement from its label, the word of its command and the words after it. -/
def ofWords (label : Option (List Char)) (command : List Char) (rest : List (List Char)) :
    Except AssemblyError Statement :=
  match Command.parse command with
  | .error error => .error error
  | .ok command =>
    let operand := if command.takesOperand then rest.head? else none
    if command.requiresOperand && operand.isNone then
      .error (.missingOperand command.text)
    else
      .ok ⟨label.map String.ofList, command, operand.map String.ofList⟩

/-- The statement of a source line, none if the line is blank or a comment. -/
def parse (line : String) : Except AssemblyError (Option Statement) :=
  match words line.toList with
  | [] => .ok none
  | first :: rest =>
    if Command.isKeyword first then
      (ofWords none first rest).map some
    else if isIdentifier first then
      match rest with
      | [] => .error (.missingOperation (String.ofList first))
      | command :: rest => (ofWords (some first) command rest).map some
    else
      .error (.invalidSymbol (String.ofList first))

end Statement

end Sicxe
