/-!
# Files and the console

The commands read and write files and print text through the operations of `Console`. A
`Directory` is a tree of files as a value, and `Session` runs a command on one: it collects what is
printed and which files change. Paths may lead out of the tree, where little is known: the
directories at the top of a file system, and the devices.
-/

namespace Sicxe.CommandLine

/-- Why a file cannot be read or written. -/
inductive FileError where
  | notFound
  | notDirectory
  | isDirectory
  | nameTooLong
  | other (text : String)
  deriving DecidableEq, Repr

/-- The text of the error. -/
def FileError.message : FileError → String
  | notFound => "No such file or directory (os error 2)"
  | notDirectory => "Not a directory (os error 20)"
  | isDirectory => "Is a directory (os error 21)"
  | nameTooLong => "File name too long (os error 36)"
  | other text => text

/-- The outside world as the commands see it. -/
class Console (m : Type → Type) where
  readFile : String → m (Except FileError String)
  writeFile : String → String → m (Except FileError Unit)
  print : String → m Unit
  /-- Waits for a number of milliseconds. -/
  pause : Nat → m Unit

/-- The names on the way to a file. -/
abbrev Path := List String

/-! ### Places -/

/-- Where a path leads: into a tree of files, named from its root, or to a place around it, named
from the top of the file system. -/
inductive Place where
  | inside (path : Path)
  | outside (path : Path)
  deriving DecidableEq, Repr

/-- What is at a place. -/
inductive Entry where
  | missing
  | directory
  | file (content : String)
  deriving DecidableEq, Repr

namespace Place

/-- The directory around a place. The root of a tree stands in the directory for temporary files,
and nothing is above the top. -/
def parent : Place → Place
  | inside [] => outside ["tmp"]
  | inside path => inside path.dropLast
  | outside path => outside path.dropLast

/-- The place with a name in a directory. -/
def child (name : String) : Place → Place
  | inside path => inside (path ++ [name])
  | outside path => outside (path ++ [name])

/-- The directories at the top of a file system. -/
def topDirectories : List String :=
  ["bin", "boot", "dev", "etc", "home", "lib", "media", "mnt", "opt", "proc", "root", "run", "sbin",
    "srv", "sys", "tmp", "usr", "var"]

/-- The device that prints what is written to it. -/
def outputDevice : Path :=
  ["dev", "stdout"]

/-- The devices that have nothing to be read. -/
def devices : List Path :=
  [["dev", "null"], ["dev", "stdin"], outputDevice, ["dev", "stderr"]]

/-- What is at a place around a tree. -/
def surroundings (path : Path) : Entry :=
  if path ∈ devices then .file ""
  else if path = [] ∨ ∃ name ∈ topDirectories, path = [name] then .directory
  else .missing

end Place

/-- A tree of files. A directory is there as long as there is a file in it; the root always is. -/
structure Directory where
  files : List (Path × String) := []
  deriving DecidableEq, Repr

namespace Directory

/-- What is at a place. -/
def entry (directory : Directory) : Place → Entry
  | .outside path => Place.surroundings path
  | .inside path =>
    match directory.files.lookup path with
    | some content => .file content
    | none =>
      if path = [] ∨ directory.files.any (fun file => path.isPrefixOf file.1) then .directory
      else .missing

/-- The greatest number of bytes in a name. -/
def greatestName : Nat := 255

/-- The place that a name leads to from a place, which must be a directory. -/
def step (directory : Directory) (place : Place) (name : String) : Except FileError Place :=
  match directory.entry place with
  | .missing => .error .notFound
  | .file _ => .error .notDirectory
  | .directory =>
    if name = "" ∨ name = "." then .ok place
    else if name = ".." then .ok place.parent
    else if greatestName < name.utf8ByteSize then .error .nameTooLong
    else .ok (place.child name)

/-- The names in the text of a path. There is a name before and after each slash, which may be
empty. -/
def pathNames (text : String) : List String :=
  (text.toList.splitOn '/').map String.ofList

/-- The place where a path begins. -/
def start (names : List String) : Place :=
  if names.length > 1 ∧ names.head? = some "" then .outside [] else .inside []

/-- The place that the text of a path leads to. -/
def resolve (directory : Directory) (text : String) : Except FileError Place :=
  if text = "" then .error .notFound
  else
    let names := pathNames text
    names.foldlM directory.step (start names)

/-- The content of the file at the end of a path. -/
def read (directory : Directory) (text : String) : Except FileError String := do
  match directory.entry (← directory.resolve text) with
  | .missing => .error .notFound
  | .directory => .error .isDirectory
  | .file content => return content

/-- The place of a file that is to be written, which need not be there yet but must be in a
directory. A slash behind the name asks for a directory. -/
def target (directory : Directory) (text : String) : Except FileError Place :=
  if text = "" then .error .notFound
  else do
    let names := pathNames text
    match names.reverse.dropWhile (· == "") with
    | [] => .error .isDirectory
    | name :: before =>
      let around ← before.reverse.foldlM directory.step (start names)
      let place ← directory.step around name
      if names.getLast? = some "" ∨ directory.entry place = .directory then .error .isDirectory
      else return place

/-- The directory with a file written. -/
def put (directory : Directory) (path : Path) (content : String) : Directory :=
  ⟨(directory.files.filter fun file => file.1 != path) ++ [(path, content)]⟩

/-- The directory with the files of a list; the names in it are paths with slashes. -/
def ofList (files : List (String × String)) : Directory :=
  ⟨files.map fun (name, content) => ((name.toList.splitOn '/').map String.ofList, content)⟩

end Directory

/-- What a command works on when it runs on a directory value. -/
structure Session where
  directory : Directory
  output : String := ""
  /-- The files that were written, with their last contents. -/
  written : List (Path × String) := []
  deriving DecidableEq, Repr

namespace Session

/-- The session after some text was printed. -/
def print (session : Session) (text : String) : Session :=
  { session with output := session.output ++ text }

/-- The session after a file was written, if it can be. What is written outside the tree leaves no
trace, unless it is printed. -/
def write (session : Session) (name content : String) : Except FileError Session := do
  match ← session.directory.target name with
  | .outside path => return if path = Place.outputDevice then session.print content else session
  | .inside path =>
    return { session with
      directory := session.directory.put path content
      written := (session.written.filter fun file => file.1 != path) ++ [(path, content)] }

end Session

instance : Console (StateM Session) where
  readFile name := fun session => (session.directory.read name, session)
  writeFile name content := fun session =>
    match session.write name content with
    | .ok session => (.ok (), session)
    | .error error => (.error error, session)
  print text := fun session => ((), session.print text)
  pause _ := fun session => ((), session)

/-- A reversed path without the slashes and the single dots at its end. -/
def dropTail : List Char → List Char
  | '/' :: rest => dropTail rest
  | '.' :: '/' :: rest => dropTail rest
  | path => path

/-- A name without its extension. A dot at the front of a name starts no extension. -/
def stem (name : List Char) : List Char :=
  match name.reverse.dropWhile (· != '.') with
  | '.' :: front => if front.isEmpty then name else front.reverse
  | _ => name

/-- The path of a file with another extension. A path that ends in no name stays as it is, and a
name whose stem is a single dot becomes the name of the directory above. -/
def withExtension (path : String) (extension : String) : String :=
  let reversed := dropTail path.toList.reverse
  let name := (reversed.takeWhile (· != '/')).reverse
  let parent := (reversed.dropWhile (· != '/')).reverse
  if name = [] ∨ name = ['.'] ∨ name = ['.', '.'] then path
  else if stem name = ['.'] ∧ reversed.length = path.length then
    String.ofList (parent ++ ['.', '.'])
  else String.ofList (parent ++ stem name) ++ "." ++ extension

end Sicxe.CommandLine
