import Sicxe.Proofs.Assembly.Extension
import Sicxe.Proofs.Assembly.Moved.Placing

/-!
# The placement of a moved program

* `Placement.Movable`: what a program must keep to so that it can be moved.
* `Placing.Moved.placeLines`: the statements behind `START` are placed alike in the moved program.
* `Placement.ofSource_moved`: a program with another `START` address is placed alike.
-/

namespace Sicxe

variable {distance : Int}

/-- What a program must keep to so that it can be moved: every exported name is defined, `BASE`
gives addresses of the program, and the addresses that `BASE` and `EQU` give have 32 bits. -/
structure Placement.Movable (placement : Placement) : Prop where
  exported : ∀ name ∈ placement.exportedNames, name ∈ placement.definedNames
  base : ∀ line ∈ placement.lines, line.command = .directive .BASE → ∀ value,
    placement.eval (line.operand.getD "") line.address = .ok value →
      value.external = none ∧ value.relative = 1 ∧ value.Fits
  equal : ∀ line ∈ placement.lines, line.command = .directive .EQU → ∀ value,
    placement.eval (line.operand.getD "") line.address = .ok value → value.relative = 1 →
      value.Fits

instance (placement : Placement) : Decidable placement.Movable :=
  decidable_of_iff (_ ∧ _ ∧ _) ⟨fun ⟨exported, base, equal⟩ => ⟨exported, base, equal⟩,
    fun movable => ⟨movable.exported, movable.base, movable.equal⟩⟩

/-- A placement and the placement of the same program moved by `distance`. -/
structure Placement.Moved (distance : Int) (placement moved : Placement) : Prop where
  name : moved.name = placement.name
  start : Shifted distance placement.start moved.start
  lines : List.Forall₂ (PlacedLine.Moved distance) placement.lines moved.lines
  symbols : List.Forall₂ (Symbol.Moved distance) placement.symbols.symbols moved.symbols.symbols
  imports : moved.imports = placement.imports
  literals : List.Forall₂ (fun entry other => other.1 = entry.1 ∧ Shifted distance entry.2 other.2)
    placement.literals moved.literals

namespace Placing

variable {placing moved next final finalMoved : Placing} {line : Nat} {first : Bool}
variable {statement : Statement} {source sourceMoved : List String}

/-- The address that an `EQU` line gave has 32 bits if the finished program can be moved. -/
theorem Extends.fits (extended : next.Extends final) (movable : (final.finish source).Movable)
    (isEqual : statement.command = .directive .EQU)
    (placed : placing.place line first statement = .ok next) :
    placing.AddressFits (statement.operand.getD "") := by
  intro value evaluated isLocal moves
  have placed := place_cases placed
  obtain ⟨address, size, pool, lines, _, here⟩ := placed.lines_eq
  have here : address = placing.counter := here (by rw [isEqual]; decide)
  subst here
  have member : ⟨line, statement.label, statement.command, statement.operand, placing.counter,
      size⟩ ∈ final.lines.toList := by
    refine extended.lines _ ?_
    rw [lines]
    exact List.mem_append_right _ List.mem_cons_self
  exact movable.equal _ member isEqual value
    ((placed.extends.trans extended).eval evaluated isLocal) moves

/-- **The statements behind `START` are placed alike in the moved program.** -/
theorem Moved.placeLines {statements : List (String × Nat)}
    (related : Moved distance placing moved) (movable : (final.finish source).Movable)
    (movableMoved : (finalMoved.finish sourceMoved).Movable)
    (succeeded : placing.placeLines false statements = .ok (some final))
    (succeededMoved : moved.placeLines false statements = .ok (some finalMoved)) :
    Moved distance final finalMoved := by
  induction statements generalizing placing moved with
  | nil => cases succeeded
  | cons head rest ih =>
    obtain ⟨text, line⟩ := head
    unfold Placing.placeLines at succeeded succeededMoved
    cases parsed : Statement.parse text with
    | error error =>
      rw [parsed] at succeeded
      cases succeeded
    | ok content =>
      cases content with
      | none =>
        rw [parsed] at succeeded succeededMoved
        exact ih related succeeded succeededMoved
      | some statement =>
        simp only [parsed] at succeeded succeededMoved
        split at succeeded
        · cases succeeded
        · rename_i next placed
          split at succeededMoved
          · cases succeededMoved
          · rename_i nextMoved placedMoved
            -- What `EQU` gives here is what the finished placements have at its line, and these
            -- are known to be movable.
            have step : next.Extends final → nextMoved.Extends finalMoved →
                Moved distance next nextMoved := fun extended extendedMoved =>
              related.place line (fun isEqual => extended.fits movable isEqual placed)
                (fun isEqual => extendedMoved.fits movableMoved isEqual placedMoved)
                next nextMoved placed placedMoved
            by_cases isEnd : statement.command = .directive .END
            · rw [if_pos isEnd] at succeeded succeededMoved
              cases succeeded
              cases succeededMoved
              exact step (.refl _) (.refl _)
            · rw [if_neg isEnd] at succeeded succeededMoved
              refine ih (step ?_ ?_) succeeded succeededMoved
              · exact placeLines_extends (fun impossible => by cases impossible) succeeded
              · exact placeLines_extends (fun impossible => by cases impossible) succeededMoved

/-- A program behind its first line, a `START` line with a label. -/
def started (label operand : String) (start : Nat) : Placing where
  name := label
  start := start
  counter := start
  symbols := ⟨[⟨⟨label, UInt32.ofNat start, true, false⟩, true⟩]⟩
  lines := #[⟨1, some label, .directive .START, some operand, start, 0⟩]

theorem place_start {label operand : String}
    (succeeded : ({} : Placing).place 1 true ⟨some label, .directive .START, some operand⟩ =
      .ok next) :
    ∃ start : Nat, readInteger operand.toList = .ok start ∧ start < maxAddress ∧
      next = started label operand start := by
  obtain ⟨start, read, succeeded⟩ := bind_eq_ok_iff.mp succeeded
  split at succeeded
  · cases succeeded
  · rename_i inSpace
    obtain ⟨symbols, defined, succeeded⟩ := bind_eq_ok_iff.mp succeeded
    cases (SymbolTable.Builder.defineExported_empty _ _).symm.trans
      (liftSymbol_eq_ok_iff.mp defined)
    obtain ⟨_, rfl⟩ := checkCounter_eq_ok_iff.mp succeeded
    refine ⟨start.toNat, ?_, by omega, rfl⟩
    rw [Int.toNat_of_nonneg (by omega)]
    exact read

theorem started_moved {start startMoved : Nat} (label operand operandMoved : String)
    (bounded : start < maxAddress) (boundedMoved : startMoved < maxAddress) :
    Moved (startMoved - start) (started label operand start)
      (started label operandMoved startMoved) := by
  have shifted : Shifted (startMoved - start) start startMoved := by
    unfold Shifted
    omega
  have limit := Nat.le_of_lt bounded
  have limitMoved := Nat.le_of_lt boundedMoved
  exact ⟨rfl, shifted, shifted,
    .cons (.defined ⟨rfl, rfl, rfl, shifted.ofNat limit limitMoved⟩) .nil, rfl, .nil,
    .cons ⟨rfl, rfl, rfl, fun isOther => absurd rfl isOther, shifted, rfl⟩ .nil, limit, limitMoved⟩

/-- Every symbol is defined if every exported name is. -/
theorem Accounted.complete (accounted : placing.Accounted) (unique : placing.symbols.names.Nodup)
    (exported : ∀ name ∈ (placing.finish source).exportedNames,
      name ∈ (placing.finish source).definedNames) :
    ∀ entry ∈ placing.symbols.entries, entry.defined = true := by
  intro entry member
  have known : entry.symbol.name ∈ placing.symbols.names := List.mem_map.mpr ⟨entry, member, rfl⟩
  have isDefined : placing.symbols.isDefined entry.symbol.name = true := by
    rw [accounted.defined_iff]
    rcases (accounted.known_iff _).mp known with defined | listed
    · exact defined
    · exact exported _ listed
  rw [SymbolTable.Builder.isDefined, SymbolTable.Builder.find?_of_mem unique member] at isDefined
  exact isDefined

/-- The finished placements of related programs are related. -/
theorem Moved.finish (related : Moved distance placing moved)
    (complete : ∀ entry ∈ placing.symbols.entries, entry.defined = true) :
    (placing.finish source).Moved distance (moved.finish sourceMoved) := by
  refine ⟨related.name, related.start, related.lines, related.symbols.build complete,
    related.imports, ?_⟩
  refine List.rel_filterMap (fun entry other pair => ?_) related.pool
  obtain ⟨text, address⟩ := entry
  obtain ⟨textMoved, addressMoved⟩ := other
  obtain ⟨same, place⟩ := pair
  cases place with
  | none => exact .none
  | some place => exact .some ⟨same, place⟩

end Placing

namespace Placement

variable {source sourceMoved head headMoved label operand operandMoved : String}
variable {rest : List String} {placement moved : Placement}

/-- A program whose first line is a `START` line with a label goes on behind it. -/
theorem ofSource_started (lines : Text.stringLines source = head :: rest)
    (parsed : Statement.parse head = .ok (some ⟨some label, .directive .START, some operand⟩))
    (placed : ofSource source = .ok placement) :
    ∃ (start : Nat) (final : Placing), readInteger operand.toList = .ok start ∧
      start < maxAddress ∧ final.Accounted ∧
      (Placing.started label operand start).placeLines false (rest.zipIdx 2) = .ok (some final) ∧
      placement = final.finish (Text.stringLines source) := by
  obtain ⟨final, run, rfl⟩ := ofSource_placeLines placed
  have accounted : final.Accounted :=
    Placing.placeLines_induction (fun _ holds _ _ placed => holds.place placed) (fun _ => rfl)
      Placing.accounted_empty run
  rw [lines, List.zipIdx_cons] at run
  simp only [Placing.placeLines, parsed] at run
  split at run
  · cases run
  · rename_i next isStarted
    obtain ⟨start, read, bounded, rfl⟩ := Placing.place_start isStarted
    rw [if_neg (by decide)] at run
    exact ⟨start, final, read, bounded, accounted, run, rfl⟩

/-- Such a program has a name. -/
theorem name_of_started (lines : Text.stringLines source = head :: rest)
    (parsed : Statement.parse head = .ok (some ⟨some label, .directive .START, some operand⟩))
    (placed : ofSource source = .ok placement) : placement.name ≠ "" := by
  obtain ⟨start, final, _, _, _, run, same⟩ := ofSource_started lines parsed placed
  have extended := Placing.placeLines_extends (fun impossible => by cases impossible) run
  have member : ⟨1, some label, .directive .START, some operand, start, 0⟩ ∈ placement.lines := by
    rw [same]
    exact extended.lines _ List.mem_cons_self
  obtain ⟨isName, nonempty⟩ := name_of_start placed member rfl rfl
  rw [isName]
  exact nonempty

/-- **A program with another `START` address is placed alike.** -/
theorem ofSource_moved (lines : Text.stringLines source = head :: rest)
    (linesMoved : Text.stringLines sourceMoved = headMoved :: rest)
    (parsed : Statement.parse head = .ok (some ⟨some label, .directive .START, some operand⟩))
    (parsedMoved : Statement.parse headMoved =
      .ok (some ⟨some label, .directive .START, some operandMoved⟩))
    (placed : ofSource source = .ok placement) (placedMoved : ofSource sourceMoved = .ok moved)
    (movable : placement.Movable) (movableMoved : moved.Movable) :
    ∃ start startMoved : Nat, readInteger operand.toList = .ok start ∧
      readInteger operandMoved.toList = .ok startMoved ∧
      placement.Moved (startMoved - start) moved := by
  obtain ⟨_, _, unique, _⟩ := wellNamed placed
  obtain ⟨start, final, read, bounded, accounted, run, rfl⟩ := ofSource_started lines parsed placed
  obtain ⟨startMoved, finalMoved, readMoved, boundedMoved, _, runMoved, rfl⟩ :=
    ofSource_started linesMoved parsedMoved placedMoved
  have unique : final.symbols.names.Nodup := SymbolTable.Builder.names_build final.symbols ▸ unique
  have related := (Placing.started_moved label operand operandMoved bounded boundedMoved).placeLines
    movable movableMoved run runMoved
  exact ⟨start, startMoved, read, readMoved,
    related.finish (accounted.complete unique movable.exported)⟩

end Placement

end Sicxe
