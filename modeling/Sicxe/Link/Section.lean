import Sicxe.Link.Error
import Sicxe.Object.Basic

/-!
# Sections

A section is the address range of one module in a linked program.

* `Section.atStarts` leaves every module at its own start and refuses modules that overlap.
* `Section.endToEnd` lays the modules one after another from address 0.

Addresses are numbers of 32 bits. A module that would end beyond them has no section and stops the
linker, whichever way the modules are laid; so does a module with more bytes than there are
addresses.
-/

namespace Sicxe

/-- The name by which errors refer to the module at a position in the list. -/
def Object.displayName (object : Object) (position : Nat) : String :=
  if object.name = "" then "#" ++ toString position else object.name

/-- The addresses from `begin` up to but not including `limit`. -/
structure Section where
  begin : Nat
  limit : Nat
  name : String
  deriving DecidableEq, Repr

namespace Section

/-- The limit of a section fits in the 32 bits of an address. -/
def Addressable (range : Section) : Prop :=
  range.limit < Numeral.wordBound

instance (range : Section) : Decidable range.Addressable :=
  inferInstanceAs (Decidable (_ < _))

/-- Some sections, if the limits of all of them are addresses. -/
def checked (sections : List Section) : Except LinkError (List Section) :=
  if ∀ range ∈ sections, range.Addressable then .ok sections else .error .overflow

/-- Whether two sections share an address, given that neither is empty. -/
def overlaps (first second : Section) : Bool :=
  first.begin < second.limit && second.begin < first.limit

/-- Whether a section has no addresses. -/
def isEmpty (range : Section) : Bool :=
  range.begin == range.limit

/-- The first two neighbours in a list that overlap. -/
def firstOverlap? : List Section → Option (Section × Section)
  | first :: second :: rest =>
    if first.overlaps second then some (first, second) else firstOverlap? (second :: rest)
  | _ => none

/-- The sections of modules that stay at their own starts, with limits as numbers. -/
def ofStarts (modules : List Object) : List Section :=
  modules.zipIdx.map fun (object, position) =>
    ⟨object.start.toNat, object.limit, object.displayName position⟩

/-- The sections of modules at their own starts. Of the sections that have addresses, in the order
of their begins, no two neighbours may overlap. -/
def atStarts (modules : List Object) : Except LinkError (List Section) := do
  let sections ← checked (ofStarts modules)
  let sorted := (sections.filter fun range => !range.isEmpty).mergeSort
    fun first second => first.begin ≤ second.begin
  match firstOverlap? sorted with
  | some (first, second) => .error (.overlap first.name second.name second.begin)
  | none => return sections

/-- The sections of modules laid end to end from `address` on, the first one at `position` in the
list of all modules, with limits as numbers. -/
def endToEndFrom (address position : Nat) : List Object → List Section
  | [] => []
  | object :: rest =>
    ⟨address, address + object.length, object.displayName position⟩ ::
      endToEndFrom (address + object.length) (position + 1) rest

/-- The sections of modules laid end to end from address 0. -/
def endToEnd (modules : List Object) : Except LinkError (List Section) :=
  checked (endToEndFrom 0 0 modules)

/-- The lowest begin and the highest limit of some sections. -/
def span : List Section → Nat × Nat
  | [] => (0, 0)
  | first :: rest =>
    (rest.foldl (fun least range => min least range.begin) first.begin,
      rest.foldl (fun greatest range => max greatest range.limit) first.limit)

end Section

end Sicxe
