import Sicxe.Assembly.Placement
import Sicxe.Proofs.Assembly.Expression
import Sicxe.Proofs.Symbol.Moved
import Sicxe.Proofs.Word

/-!
# Values, lines and literals of a moved program

* `Value.ofText_moved`: an operand has the moved value in the moved program.
* `PlacedLine.Moved` relates a line to the same line of the moved program.
* `LiteralPool.flushEntries_moved`: the same literals are flushed in the moved program.
-/

namespace Sicxe

variable {distance : Int}

/-! ### Addresses and values -/

theorem toNat_ofInt {number : Int} (least : 0 ≤ number) (greatest : number < 0x100000000) :
    ((UInt32.ofInt number).toNat : Int) = number := by
  rw [toNat_ofInt_emod]
  omega

theorem Shifted.ofNat {address shifted : Nat} (related : Shifted distance address shifted)
    (small : address ≤ maxAddress) (smallShifted : shifted ≤ maxAddress) :
    Shifted distance (UInt32.ofNat address).toNat (UInt32.ofNat shifted).toNat := by
  unfold maxAddress at small smallShifted
  rw [UInt32.toNat_ofNat', UInt32.toNat_ofNat', Nat.mod_eq_of_lt (by omega),
    Nat.mod_eq_of_lt (by omega)]
  exact related

namespace Value

/-- The constant of a value is a number of 32 bits. -/
def Fits (value : Value) : Prop :=
  0 ≤ value.constant ∧ value.constant < 0x100000000

instance (value : Value) : Decidable value.Fits :=
  inferInstanceAs (Decidable (_ ∧ _))

variable {value : Value}

/-- A constant stays when the program moves. -/
theorem moved_of_relative (fixed : value.relative = 0) : value.moved distance = value := by
  obtain ⟨constant, relative, external⟩ := value
  subst fixed
  simp only [moved, Int.zero_mul, Int.add_zero]

/-- An address of the program as 32 bits. -/
theorem shifted_of_fits (moves : value.relative = 1) (fits : value.Fits)
    (fitsMoved : (value.moved distance).Fits) :
    Shifted distance (UInt32.ofInt value.constant).toNat
      (UInt32.ofInt (value.moved distance).constant).toNat := by
  unfold Shifted
  rw [toNat_ofInt fits.1 fits.2, toNat_ofInt fitsMoved.1 fitsMoved.2]
  simp only [moved, moves, Int.one_mul]

theorem ofSymbol_moved {symbol moved : Symbol} (related : symbol.Moved distance moved) :
    ofSymbol moved = (ofSymbol symbol).moved distance := by
  have address := related.address
  unfold ofSymbol
  rw [related.absolute]
  split
  · rename_i isAbsolute
    rw [if_pos isAbsolute, Shifted] at address
    simp only [absolute, Value.moved, Int.zero_mul, Int.add_zero, address]
  · rename_i moves
    rw [if_neg moves, Shifted] at address
    simp only [Value.address, Value.moved, Int.one_mul, address]

/-- **A name is worth the moved value** where its symbol is the moved one. -/
theorem lookup_moved {find findMoved : String → Option Symbol}
    (related : ∀ name, Option.Rel (Symbol.Moved distance) (find name) (findMoved name))
    (imports : List String) (name : String) :
    lookup findMoved imports name = (lookup find imports name).map (Value.moved distance) := by
  have found := related name
  unfold lookup
  generalize find name = symbol, findMoved name = moved at found ⊢
  cases found with
  | none =>
    dsimp only
    split
    · simp [imported, Value.moved]
    · rfl
  | some pair => exact congrArg some (ofSymbol_moved pair)

/-- **An operand has the moved value in the moved program**, if it has a value there. -/
theorem ofText_moved {find findMoved : String → Option Symbol} {here there : Nat}
    (related : ∀ name, Option.Rel (Symbol.Moved distance) (find name) (findMoved name))
    (line : Shifted distance here there) (imports : List String) (text : String) :
    Related (fun value moved => moved = value.moved distance)
      (ofText text here (lookup find imports)) (ofText text there (lookup findMoved imports)) := by
  refine (Related.same (Expr.parse text)).bind ?_
  rintro expr _ rfl value moved evaluated evaluatedMoved
  exact Expr.eval_moved (lookup_moved related imports) line evaluated evaluatedMoved

end Value

/-! ### Lines and literals -/

/-- A line and the same line in a program moved by `distance`. Only the operand of `START` is
another one. -/
structure PlacedLine.Moved (distance : Int) (placed moved : PlacedLine) : Prop where
  line : moved.line = placed.line
  label : moved.label = placed.label
  command : moved.command = placed.command
  operand : placed.command ≠ .directive .START → moved.operand = placed.operand
  address : Shifted distance placed.address moved.address
  size : moved.size = placed.size

namespace LiteralPool

/-- The entry of a literal and the same entry in a program moved by `distance`. -/
structure EntryMoved (distance : Int) (entry moved : String × Option Nat) : Prop where
  text : moved.1 = entry.1
  address : Option.Rel (Shifted distance) entry.2 moved.2

variable {entries moved : List (String × Option Nat)}

theorem any_moved (related : List.Forall₂ (EntryMoved distance) entries moved) (literal : String) :
    (moved.any fun entry => entry.1 == literal) = entries.any fun entry => entry.1 == literal := by
  induction related with
  | nil => rfl
  | cons pair _ ih => rw [List.any_cons, List.any_cons, ih, pair.text]

theorem add_moved {pool poolMoved : LiteralPool}
    (related : List.Forall₂ (EntryMoved distance) pool.entries poolMoved.entries)
    (literal : String) :
    List.Forall₂ (EntryMoved distance) (pool.add literal).entries
      (poolMoved.add literal).entries := by
  unfold add
  rw [any_moved related]
  split
  · exact related
  · exact List.rel_append related (.cons ⟨rfl, .none⟩ .nil)

theorem dataLine_moved {address shifted : Nat} (related : Shifted distance address shifted)
    (text : String) (size : Nat) :
    PlacedLine.Moved distance (dataLine text address size) (dataLine text shifted size) :=
  ⟨rfl, rfl, rfl, fun _ => rfl, related, rfl⟩

/-- **The same literals are flushed in the moved program.** -/
theorem flushEntries_moved {counter shifted : Nat}
    (related : List.Forall₂ (EntryMoved distance) entries moved)
    (start : Shifted distance counter shifted)
    (complete : (flushEntries counter entries).error = none)
    (completeMoved : (flushEntries shifted moved).error = none) :
    List.Forall₂ (EntryMoved distance) (flushEntries counter entries).entries
        (flushEntries shifted moved).entries ∧
      Shifted distance (flushEntries counter entries).counter
        (flushEntries shifted moved).counter ∧
      List.Forall₂ (PlacedLine.Moved distance) (flushEntries counter entries).lines
        (flushEntries shifted moved).lines := by
  induction related generalizing counter shifted with
  | nil => exact ⟨.nil, start, .nil⟩
  | @cons entry other _ _ pair _ ih =>
    obtain ⟨_, address⟩ := entry
    obtain ⟨text, addressMoved⟩ := other
    obtain ⟨rfl, place⟩ := pair
    cases place with
    | some place =>
      obtain ⟨placed, reached, lines⟩ := ih start complete completeMoved
      exact ⟨.cons ⟨rfl, .some place⟩ placed, reached, lines⟩
    | none =>
      simp only [flushEntries] at complete completeMoved ⊢
      cases read : Literal.parse text with
      | error error =>
        rw [read] at complete
        cases complete
      | ok literal =>
        simp only [read] at complete completeMoved ⊢
        have behind : Shifted distance (counter + literal.size) (shifted + literal.size) := by
          unfold Shifted at start ⊢
          omega
        obtain ⟨placed, reached, lines⟩ := ih behind complete completeMoved
        exact ⟨.cons ⟨rfl, .some start⟩ placed, reached,
          .cons (dataLine_moved start text literal.size) lines⟩

end LiteralPool

end Sicxe
