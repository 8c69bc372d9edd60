import Sicxe.Symbol.Basic

/-!
# Building symbol tables

A builder collects definitions and exports in any order. An export of a name that is not defined
yet holds a place for it at address 0, which the definition fills in later.

* `Builder.define` gives a name its address once; a second definition is an error.
* `Builder.insert` puts in a whole symbol, flags included.
* `Builder.publish` makes a name visible to other modules.
-/

namespace Sicxe

/-- Why a symbol cannot be defined. -/
inductive SymbolError where
  | duplicate (name : String)
  deriving DecidableEq, Repr

/-- The text of the error. -/
def SymbolError.message : SymbolError → String
  | duplicate name => "Re-defined symbol: `" ++ name ++ "`"

namespace SymbolTable

/-- A symbol under construction; an exported name may still lack its definition. -/
structure Entry where
  symbol : Symbol
  defined : Bool
  deriving DecidableEq, Repr

/-- A growing symbol table with at most one entry for each name. -/
structure Builder where
  entries : List Entry := []
  deriving DecidableEq, Repr

namespace Builder

/-- The entry of a name. -/
def find? (builder : Builder) (name : String) : Option Entry :=
  builder.entries.find? fun entry => entry.symbol.name == name

/-- Whether a name has its definition. -/
def isDefined (builder : Builder) (name : String) : Bool :=
  (builder.find? name).any Entry.defined

/-- The symbol of a defined name. -/
def get? (builder : Builder) (name : String) : Option Symbol :=
  ((builder.find? name).filter Entry.defined).map Entry.symbol

/-- The builder with the entry of `name` replaced by what `change` makes of it; a name without an
entry gets `fresh` at the end. -/
def upsert (builder : Builder) (name : String) (change : Entry → Entry) (fresh : Entry) : Builder :=
  if (builder.find? name).isSome then
    ⟨builder.entries.map fun entry => if entry.symbol.name == name then change entry else entry⟩
  else
    ⟨builder.entries ++ [fresh]⟩

/-- Defines a name at an address. The constants of a program are `absolute`. -/
def defineAs (builder : Builder) (name : String) (address : UInt32) (absolute : Bool) :
    Except SymbolError Builder :=
  if builder.isDefined name then
    .error (.duplicate name)
  else
    .ok (builder.upsert name
      (fun entry => ⟨{ entry.symbol with address, absolute }, true⟩)
      ⟨{ name, address, absolute }, true⟩)

/-- Defines a name at an address of the program. -/
def define (builder : Builder) (name : String) (address : UInt32) : Except SymbolError Builder :=
  builder.defineAs name address false

/-- Defines a constant. -/
def defineAbsolute (builder : Builder) (name : String) (value : UInt32) :
    Except SymbolError Builder :=
  builder.defineAs name value true

/-- Puts in a whole symbol with the flags it has. -/
def insert (builder : Builder) (symbol : Symbol) : Except SymbolError Builder :=
  if builder.isDefined symbol.name then
    .error (.duplicate symbol.name)
  else
    .ok (builder.upsert symbol.name (fun _ => ⟨symbol, true⟩) ⟨symbol, true⟩)

/-- Makes a name visible to other modules, whether it is defined yet or not. -/
def publish (builder : Builder) (name : String) : Builder :=
  builder.upsert name
    (fun entry => { entry with symbol := { entry.symbol with exported := true } })
    ⟨{ name, address := 0, exported := true }, false⟩

/-- Defines a name that other modules may refer to. -/
def defineExported (builder : Builder) (name : String) (address : UInt32) :
    Except SymbolError Builder :=
  (builder.define name address).map fun defined => defined.publish name

/-- The finished table. An exported name without a definition stays at address 0. -/
def build (builder : Builder) : SymbolTable :=
  ⟨builder.entries.map Entry.symbol⟩

end Builder

/-- The table of some symbols, whose names must be different. -/
def ofSymbols (symbols : List Symbol) : Except SymbolError SymbolTable :=
  (symbols.foldlM Builder.insert {}).map Builder.build

end SymbolTable

end Sicxe
