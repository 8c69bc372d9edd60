/-!
# Arguments of a command

The words of a command line are options, their values, and positional words. An option has a long
name after `--` and may have a letter after `-`; letters of options without a value can be put
together. A value follows its option in the next word, after `=`, or right after its letter. After
the word `--` every word is positional.

`Arguments.parse` refuses an option that is unknown or given twice, and one whose value is missing;
a word that begins with `-` is no value, except `-` itself.
-/

namespace Sicxe.CommandLine

/-- An option of a command. -/
structure OptionSpec where
  name : String
  letter : Option Char := none
  takesValue : Bool := false
  deriving DecidableEq, Repr

/-- The words of a command line sorted out. -/
structure Arguments where
  /-- The names of the options that were given, with their values. -/
  options : List (String × String) := []
  positional : List String := []
  deriving DecidableEq, Repr

namespace Arguments

/-- The value of an option. -/
def value? (arguments : Arguments) (name : String) : Option String :=
  arguments.options.lookup name

/-- Whether an option was given. -/
def has (arguments : Arguments) (name : String) : Bool :=
  (arguments.value? name).isSome

/-- The arguments with one more option, which may be given only once. -/
def addOption (arguments : Arguments) (name value : String) : Option Arguments :=
  if arguments.has name then none
  else some { arguments with options := arguments.options ++ [(name, value)] }

/-- The arguments with the options that have no value. -/
def addFlags (arguments : Arguments) (names : List String) : Option Arguments :=
  names.foldlM (fun arguments name => arguments.addOption name "") arguments

/-- The options in one word: those without a value, and the last one with the value that is
attached to it, if it takes one. -/
structure OptionWord where
  flags : List String
  valued : Option (String × Option String)

/-- Reads what follows the two dashes of a long option. -/
def readLong (specs : List OptionSpec) (text : List Char) : Option OptionWord :=
  let name := String.ofList (text.takeWhile (· != '='))
  let attached := match text.dropWhile (· != '=') with
    | _ :: value => some (String.ofList value)
    | [] => none
  match specs.find? (·.name == name) with
  | none => none
  | some spec =>
    if spec.takesValue then some ⟨[], some (name, attached)⟩
    else if attached.isSome then none
    else some ⟨[name], none⟩

/-- Reads the letters that follow one dash. -/
def readLetters (specs : List OptionSpec) : List Char → Option OptionWord
  | [] => some ⟨[], none⟩
  | c :: rest =>
    match specs.find? (·.letter == some c) with
    | none => none
    | some spec =>
      if spec.takesValue then
        let attached := match rest with
          | [] => none
          | '=' :: value => some (String.ofList value)
          | value => some (String.ofList value)
        some ⟨[], some (spec.name, attached)⟩
      else
        (readLetters specs rest).map fun word => { word with flags := spec.name :: word.flags }

/-- Whether a word holds options. -/
def isOption (word : String) : Bool :=
  word.toList.head? == some '-' && word != "-"

/-- Reads a word that holds options. -/
def readOption (specs : List OptionSpec) (word : String) : Option OptionWord :=
  match word.toList with
  | '-' :: '-' :: text => readLong specs text
  | '-' :: letters => readLetters specs letters
  | _ => none

/-- Sorts out the rest of a command line. -/
def parseFrom (specs : List OptionSpec) (arguments : Arguments) : List String → Option Arguments
  | [] => some arguments
  | word :: rest =>
    if word = "--" then
      some { arguments with positional := arguments.positional ++ rest }
    else if isOption word then
      match readOption specs word with
      | none => none
      | some ⟨flags, valued⟩ =>
        match arguments.addFlags flags, valued with
        | none, _ => none
        | some arguments, none => parseFrom specs arguments rest
        | some arguments, some (name, some value) =>
          match arguments.addOption name value with
          | none => none
          | some arguments => parseFrom specs arguments rest
        | some arguments, some (name, none) =>
          match rest with
          | [] => none
          | value :: rest =>
            if isOption value then none
            else
              match arguments.addOption name value with
              | none => none
              | some arguments => parseFrom specs arguments rest
    else
      parseFrom specs { arguments with positional := arguments.positional ++ [word] } rest

/-- Sorts out a command line. -/
def parse (specs : List OptionSpec) (words : List String) : Option Arguments :=
  parseFrom specs {} words

end Arguments

end Sicxe.CommandLine
