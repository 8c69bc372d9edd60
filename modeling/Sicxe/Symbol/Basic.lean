/-!
# Symbols

A symbol table maps each of its names to one symbol and keeps the order in which the names came
up. It is frozen: `SymbolTable.Builder` is what grows.
-/

namespace Sicxe

/-- A named address or constant. -/
structure Symbol where
  name : String
  address : UInt32
  /-- Other modules may refer to the symbol. -/
  exported : Bool := false
  /-- The address is a constant that stays when the program moves. -/
  absolute : Bool := false
  deriving DecidableEq, Repr

namespace Symbol

/-- The symbol in a program moved from `origin` to `target`. Addresses wrap at 32 bits. -/
def rebased (symbol : Symbol) (origin target : UInt32) : Symbol :=
  if symbol.absolute then symbol else { symbol with address := target + (symbol.address - origin) }

end Symbol

/-- The symbols of a program in the order of their first mention. -/
structure SymbolTable where
  symbols : List Symbol := []
  deriving DecidableEq, Repr

namespace SymbolTable

/-- The symbol with a name. -/
def get? (table : SymbolTable) (name : String) : Option Symbol :=
  table.symbols.find? fun symbol => symbol.name == name

/-- Whether a name is in the table. -/
def contains (table : SymbolTable) (name : String) : Bool :=
  (table.get? name).isSome

/-- The address of a name. -/
def address? (table : SymbolTable) (name : String) : Option UInt32 :=
  (table.get? name).map Symbol.address

/-- The symbols that other modules may refer to. -/
def exported (table : SymbolTable) : List Symbol :=
  table.symbols.filter Symbol.exported

/-- The table of a program moved from `origin` to `target`. -/
def rebased (table : SymbolTable) (origin target : UInt32) : SymbolTable :=
  ⟨table.symbols.map fun symbol => symbol.rebased origin target⟩

/-- Moving a table keeps its names. -/
theorem rebased_names (table : SymbolTable) (origin target : UInt32) :
    (table.rebased origin target).symbols.map Symbol.name = table.symbols.map Symbol.name := by
  simp only [rebased, List.map_map]
  refine List.map_congr_left fun symbol _ => ?_
  simp only [Function.comp, Symbol.rebased]
  split <;> rfl

end SymbolTable

/-- A list of names with `name` at its end, unless it is already in the list. -/
def addName (names : List String) (name : String) : List String :=
  if names.contains name then names else names ++ [name]

/-- A name is in the list after it was added, and nothing else changes. -/
theorem mem_addName (names : List String) (name other : String) :
    other ∈ addName names name ↔ other ∈ names ∨ other = name := by
  unfold addName
  split
  · rename_i known
    have member : name ∈ names := by simpa using known
    constructor
    · exact Or.inl
    · rintro (old | rfl)
      · exact old
      · exact member
  · simp

end Sicxe
