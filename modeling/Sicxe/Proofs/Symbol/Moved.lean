import Mathlib.Data.List.Forall2
import Sicxe.Proofs.Related
import Sicxe.Proofs.Symbol.Builder

/-!
# The symbols of a moved program

`Symbol.Moved` relates a symbol of a program to the same symbol of the program moved by some
distance: constants stay and addresses move along. Builders with related entries find related
entries (`Builder.Moved.find?`), and related definitions keep them related
(`Builder.Moved.defineAs`, `Builder.Moved.publish`).
-/

namespace Sicxe

/-- Lists that are related element by element find related elements, if the tests agree. -/
theorem find?_forall₂ {α β : Type} {relation : α → β → Prop} {test : α → Bool}
    {testOther : β → Bool} {items : List α} {others : List β}
    (agree : ∀ item other, relation item other → testOther other = test item)
    (related : List.Forall₂ relation items others) :
    Option.Rel relation (items.find? test) (others.find? testOther) := by
  induction related with
  | nil => exact .none
  | cons head _ ih =>
    rw [List.find?_cons, List.find?_cons, agree _ _ head]
    split
    · exact .some head
    · exact ih

/-- An address and the same address in a program moved by `distance`. -/
def Shifted (distance : Int) (address shifted : Nat) : Prop :=
  (shifted : Int) = address + distance

/-- A symbol and the same symbol in a program moved by `distance`. -/
structure Symbol.Moved (distance : Int) (symbol moved : Symbol) : Prop where
  name : moved.name = symbol.name
  exported : moved.exported = symbol.exported
  absolute : moved.absolute = symbol.absolute
  address : Shifted (if symbol.absolute then 0 else distance) symbol.address.toNat
    moved.address.toNat

namespace SymbolTable

/-- An entry and the same entry in a program moved by `distance`. A place held for a definition is
the same in both. -/
inductive Entry.Moved (distance : Int) : Entry → Entry → Prop
  | defined {symbol moved : Symbol} (related : symbol.Moved distance moved) :
      Entry.Moved distance ⟨symbol, true⟩ ⟨moved, true⟩
  | held (symbol : Symbol) : Entry.Moved distance ⟨symbol, false⟩ ⟨symbol, false⟩

namespace Entry.Moved

variable {distance : Int} {entry moved : Entry}

theorem name (related : Entry.Moved distance entry moved) :
    moved.symbol.name = entry.symbol.name := by
  cases related with
  | defined symbol => exact symbol.name
  | held => rfl

theorem exported (related : Entry.Moved distance entry moved) :
    moved.symbol.exported = entry.symbol.exported := by
  cases related with
  | defined symbol => exact symbol.exported
  | held => rfl

/-- A definition of related entries. -/
theorem define {address addressMoved : UInt32} {absolute : Bool}
    (related : Entry.Moved distance entry moved)
    (shifted : Shifted (if absolute then 0 else distance) address.toNat addressMoved.toNat) :
    Entry.Moved distance ⟨{ entry.symbol with address, absolute }, true⟩
      ⟨{ moved.symbol with address := addressMoved, absolute }, true⟩ :=
  .defined ⟨related.name, related.exported, rfl, shifted⟩

/-- An export of related entries. -/
theorem publish (related : Entry.Moved distance entry moved) :
    Entry.Moved distance { entry with symbol := { entry.symbol with exported := true } }
      { moved with symbol := { moved.symbol with exported := true } } := by
  cases related with
  | defined symbol => exact .defined ⟨symbol.name, rfl, symbol.absolute, symbol.address⟩
  | held symbol => exact .held _

end Entry.Moved

namespace Builder

/-- A builder and the same builder in a program moved by `distance`. -/
def Moved (distance : Int) (builder moved : Builder) : Prop :=
  List.Forall₂ (Entry.Moved distance) builder.entries moved.entries

namespace Moved

variable {distance : Int} {builder moved : Builder}

/-- **A name finds related entries.** -/
theorem find? (related : Moved distance builder moved) (name : String) :
    Option.Rel (Entry.Moved distance) (builder.find? name) (moved.find? name) :=
  find?_forall₂ (fun _ _ entry => by rw [entry.name]) related

theorem isDefined (related : Moved distance builder moved) (name : String) :
    moved.isDefined name = builder.isDefined name := by
  have found := related.find? name
  unfold Builder.isDefined
  generalize builder.find? name = entry, moved.find? name = other at found ⊢
  cases found with
  | none => rfl
  | some pair => cases pair <;> rfl

theorem get? (related : Moved distance builder moved) (name : String) :
    Option.Rel (Symbol.Moved distance) (builder.get? name) (moved.get? name) := by
  have found := related.find? name
  unfold Builder.get?
  generalize builder.find? name = entry, moved.find? name = other at found ⊢
  cases found with
  | none => exact .none
  | some pair =>
    cases pair with
    | defined symbol => exact .some symbol
    | held => exact .none

/-- Related changes of the entry of a name keep builders related. -/
theorem upsert {change changeMoved : Entry → Entry} {fresh freshMoved : Entry}
    (related : Moved distance builder moved) (name : String)
    (changes : ∀ entry other, Entry.Moved distance entry other →
      Entry.Moved distance (change entry) (changeMoved other))
    (freshRelated : Entry.Moved distance fresh freshMoved) :
    Moved distance (builder.upsert name change fresh)
      (moved.upsert name changeMoved freshMoved) := by
  have known : (moved.find? name).isSome = (builder.find? name).isSome := by
    have found := related.find? name
    generalize builder.find? name = entry, moved.find? name = other at found ⊢
    cases found <;> rfl
  unfold Builder.upsert
  rw [known]
  split
  · refine List.rel_map (fun entry other pair => ?_) related
    rw [pair.name]
    split
    · exact changes entry other pair
    · exact pair
  · exact List.rel_append related (.cons freshRelated .nil)

/-- **Definitions of a name at related addresses keep builders related.** -/
theorem defineAs {address addressMoved : UInt32} {absolute : Bool}
    (related : Moved distance builder moved) (name : String)
    (shifted : Shifted (if absolute then 0 else distance) address.toNat addressMoved.toNat) :
    Related (Moved distance) (builder.defineAs name address absolute)
      (moved.defineAs name addressMoved absolute) := by
  unfold Builder.defineAs
  rw [related.isDefined]
  split
  · exact .error_left
  · exact .ok (related.upsert name (fun _ _ pair => pair.define shifted)
      (.defined ⟨rfl, rfl, rfl, shifted⟩))

/-- **An export of a name keeps builders related.** -/
theorem publish (related : Moved distance builder moved) (name : String) :
    Moved distance (builder.publish name) (moved.publish name) :=
  related.upsert name (fun _ _ pair => pair.publish) (.held _)

/-- The finished tables are related if every name has its definition. -/
theorem build (related : Moved distance builder moved)
    (complete : ∀ entry ∈ builder.entries, entry.defined = true) :
    List.Forall₂ (Symbol.Moved distance) builder.build.symbols moved.build.symbols := by
  have pairs : List.Forall₂ (fun entry other => entry ∈ builder.entries ∧
      Entry.Moved distance entry other) builder.entries moved.entries :=
    (List.forall₂_and_left _ _).mpr ⟨fun _ member => member, related⟩
  refine List.rel_map (fun entry other pair => ?_) pairs
  obtain ⟨member, pair⟩ := pair
  cases pair with
  | defined symbol => exact symbol
  | held => cases complete _ member

end Moved

end Builder

end SymbolTable

end Sicxe
