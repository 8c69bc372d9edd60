import Sicxe.Proofs.Assembly.Extension
import Sicxe.Proofs.Assembly.Layout

/-!
# Addresses are the start plus the sizes before

The lines of a placement follow one another, so the address of a line is the start of the program
plus the sizes of all lines before it, those that hold literals included. A label that stands for
the place of its line is defined when the line is placed, before the counter moves on: its symbol
has the address of the line, whether or not an `EXTDEF` had held a place for it, and no later
statement changes it.

* `Placement.Addressed`: what the addresses of lines and labels are.
* `Placement.addressed`: **every placement has these addresses.**
-/

namespace Sicxe

/-- Whether the label of a command stands for the place of its line. The label of `EQU` stands for
the value of the operand, and those of `END`, `EXTDEF` and `EXTREF` for nothing. -/
def Command.labelsPlace : Command → Bool
  | .directive .END | .directive .EXTDEF | .directive .EXTREF | .directive .EQU => false
  | _ => true

/-- What the addresses of lines and labels are. -/
structure Placement.Addressed (placement : Placement) : Prop where
  address_eq : ∀ before line after, placement.lines = before ++ line :: after →
    line.address = placement.start + (before.map PlacedLine.size).sum
  length_eq : placement.length = (placement.lines.map PlacedLine.size).sum
  limit_le : placement.start + placement.length ≤ 0x100000
  label_eq : ∀ line ∈ placement.lines, line.command.labelsPlace = true →
    ∀ label, line.label = some label →
      ∃ symbol, placement.symbols.get? label = some symbol ∧ symbol.absolute = false ∧
        symbol.address.toNat = line.address

/-! ### Lines that follow one another -/

/-- Lines that follow one another end behind the sum of their sizes. -/
theorem Follows.limit_eq {address limit : Nat} {lines : List PlacedLine}
    (follows : Follows address lines limit) :
    limit = address + (lines.map PlacedLine.size).sum := by
  induction lines generalizing address with
  | nil => exact follows.symm
  | cons line rest ih =>
    rw [ih follows.2, List.map_cons, List.sum_cons, Nat.add_assoc]

/-- **The address of a line is where the lines before it end.** -/
theorem Follows.address_eq {address limit : Nat} {before after : List PlacedLine}
    {line : PlacedLine} (follows : Follows address (before ++ line :: after) limit) :
    line.address = address + (before.map PlacedLine.size).sum := by
  obtain ⟨middle, first, here, _⟩ := follows_append.mp follows
  rw [here, first.limit_eq]

/-- A symbol is worth an address of the program exactly if it is not a constant. -/
theorem Value.ofSymbol_eq_address_iff {symbol : Symbol} {address : Nat} :
    Value.ofSymbol symbol = .address address ↔
      symbol.absolute = false ∧ symbol.address.toNat = address := by
  unfold Value.ofSymbol
  by_cases isConstant : symbol.absolute
  · simp [isConstant, Value.absolute, Value.address]
  · simp [isConstant, Value.address]

namespace Placing

variable {placing middle next : Placing} {line : Nat} {first : Bool} {statement : Statement}
variable {label : String} {address : Nat}

/-! ### The label of a statement -/

/-- A name is defined as an address of the program. -/
def Locates (placing : Placing) (label : String) (address : Nat) : Prop :=
  ∃ symbol, placing.symbols.get? label = some symbol ∧ Value.ofSymbol symbol = .address address

theorem Locates.extends (located : placing.Locates label address)
    (extended : placing.Extends next) : next.Locates label address := by
  obtain ⟨symbol, known, isAddress⟩ := located
  obtain ⟨later, isLater, same⟩ := extended.known label symbol known
  exact ⟨later, isLater, same.trans isAddress⟩

theorem Locates.of_symbols (located : placing.Locates label address)
    (same : next.symbols = placing.symbols) : next.Locates label address := by
  rwa [Locates, same]

/-- An address of the program that was defined is found as it is. -/
theorem locates_of_define {symbols : SymbolTable.Builder} (bounded : address ≤ maxAddress)
    (defined : placing.symbols.define label (UInt32.ofNat address) = .ok symbols) :
    Locates { placing with symbols } label address := by
  have exact : (UInt32.ofNat address).toNat = address := by
    unfold maxAddress at bounded
    rw [UInt32.toNat_ofNat']
    omega
  obtain ⟨exported, known⟩ := SymbolTable.Builder.get?_defined defined
  exact ⟨_, known, Value.ofSymbol_eq_address_iff.mpr ⟨rfl, exact⟩⟩

/-- **The label of a statement is defined at the address counter.** -/
theorem locates_of_defineLabel (bounded : placing.counter ≤ maxAddress)
    (isLabel : statement.label = some label)
    (succeeded : placing.defineLabel statement = .ok next) :
    next.Locates label placing.counter := by
  obtain ⟨unlabelled, _⟩ | ⟨other, symbols, isOther, _, defined, rfl⟩ := defineLabel_cases succeeded
  · cases unlabelled.symm.trans isLabel
  · cases isOther.symm.trans isLabel
    exact locates_of_define bounded defined

theorem symbols_reserve {size : Nat} (succeeded : placing.reserve line statement size = .ok next) :
    next.symbols = placing.symbols := by
  obtain ⟨_, rfl⟩ := checkCounter_eq_ok_iff.mp succeeded
  rfl

theorem symbols_flush (succeeded : placing.flush line statement = .ok next) :
    next.symbols = placing.symbols := by
  obtain ⟨_, _, _, _, rfl⟩ := flush_cases succeeded
  rfl

theorem symbols_addLiteral {found : Operation} {operand : Option String}
    (succeeded : placing.addLiteral found operand = .ok next) :
    next.symbols = placing.symbols := by
  obtain ⟨_, _, rfl⟩ | ⟨_, rfl⟩ := addLiteral_cases succeeded
  · rfl
  · rfl

theorem symbols_placeReserve {unit : Nat}
    (succeeded : placing.placeReserve line statement unit = .ok next) :
    ∃ labelled, placing.defineLabel statement = .ok labelled ∧
      next.symbols = labelled.symbols := by
  obtain ⟨labelled, _, define, _, _, _, succeeded⟩ := placeReserve_cases succeeded
  exact ⟨labelled, define, symbols_reserve succeeded⟩

/-- **The symbols after a statement whose label stands for its place** are those after the label
was defined: taking the place changes none. -/
theorem symbols_place (isOther : statement.command ≠ .directive .START)
    (labels : statement.command.labelsPlace = true)
    (succeeded : placing.place line first statement = .ok next) :
    ∃ labelled, placing.defineLabel statement = .ok labelled ∧
      next.symbols = labelled.symbols := by
  unfold place at succeeded
  dsimp only at succeeded
  split at succeeded
  all_goals
    rename_i command
    rw [command] at labels
  · exact absurd command isOther
  · cases labels
  · cases labels
  · cases labels
  · cases labels
  · obtain ⟨labelled, define, succeeded⟩ := bind_eq_ok_iff.mp succeeded
    exact ⟨labelled, define, symbols_flush succeeded⟩
  · obtain ⟨labelled, define, succeeded⟩ := bind_eq_ok_iff.mp succeeded
    exact ⟨labelled, define, symbols_reserve succeeded⟩
  · obtain ⟨labelled, define, succeeded⟩ := bind_eq_ok_iff.mp succeeded
    exact ⟨labelled, define, symbols_reserve succeeded⟩
  · obtain ⟨labelled, define, succeeded⟩ := bind_eq_ok_iff.mp succeeded
    exact ⟨labelled, define, symbols_reserve succeeded⟩
  · obtain ⟨labelled, define, succeeded⟩ := bind_eq_ok_iff.mp succeeded
    obtain ⟨bytes, _, succeeded⟩ := bind_eq_ok_iff.mp succeeded
    exact ⟨labelled, define, symbols_reserve succeeded⟩
  · exact symbols_placeReserve succeeded
  · exact symbols_placeReserve succeeded
  · obtain ⟨labelled, define, succeeded⟩ := bind_eq_ok_iff.mp succeeded
    obtain ⟨pooled, added, succeeded⟩ := bind_eq_ok_iff.mp succeeded
    exact ⟨labelled, define, (symbols_reserve succeeded).trans (symbols_addLiteral added)⟩

/-! ### The labels of a program -/

/-- The labels that stand for places have the addresses of their lines. -/
def Located (placing : Placing) : Prop :=
  ∀ placed ∈ placing.lines.toList, placed.command.labelsPlace = true →
    ∀ label, placed.label = some label → placing.Locates label placed.address

/-- The label of `START` has the address that it gives the program. -/
theorem Placed.located_start (isStart : statement.command = .directive .START)
    (fresh : first = true → placing = {}) (placed : Placed placing line first statement next) :
    next.Located := by
  cases placed with
  | start _ isFirst _ unnamed =>
    cases fresh isFirst
    intro other member _ label labelled
    rw [lines_push] at member
    rw [List.mem_singleton.mp member] at labelled
    cases unnamed.symm.trans labelled
  | @startNamed start name symbols _ isFirst bounded named defined =>
    cases fresh isFirst
    intro other member _ label labelled
    rw [lines_push] at member
    rw [List.mem_singleton.mp member] at labelled ⊢
    cases named.symm.trans labelled
    obtain ⟨middle, define, rfl⟩ := map_eq_ok_iff.mp defined
    have located := locates_of_define (Nat.le_of_lt bounded) define
    exact (located.extends (.of_publish _ name)).of_symbols rfl
  | reserve isOther => exact absurd isStart isOther
  | flush isFlush => rcases isFlush with command | command <;> cases command.symm.trans isStart

/-- **A statement keeps the labels of the lines before it and locates its own.** -/
theorem Located.place (fresh : first = true → placing = {}) (laid : placing.Laid)
    (located : placing.Located) (succeeded : placing.place line first statement = .ok next) :
    next.Located := by
  have placed := place_cases succeeded
  by_cases isStart : statement.command = .directive .START
  · exact placed.located_start isStart fresh
  intro other member labels label labelled
  rcases placed.of_mem_lines member with old | ⟨_, rfl, here⟩ | ⟨text, address, size, rfl⟩
  · exact (located other old labels label labelled).extends placed.extends
  · obtain ⟨declared, define, symbols⟩ := symbols_place isStart labels succeeded
    rw [here isStart]
    exact (locates_of_defineLabel laid.limit labelled define).of_symbols symbols
  · cases labelled

end Placing

namespace Placement

variable {source : String} {placement : Placement}

/-- A finished placement comes from a program whose labels were located. -/
theorem ofSource_located (succeeded : ofSource source = .ok placement) :
    ∃ placing : Placing, (placing.Laid ∧ placing.Located) ∧
      placement = placing.finish (Text.stringLines source) :=
  ofSource_induction
    ⟨⟨by decide, by decide, rfl, fun _ member => by cases member⟩, fun _ member => by cases member⟩
    (fun fresh holds _ _ placed =>
      ⟨(Placing.place_cases placed).laid fresh holds.1, holds.2.place fresh holds.1 placed⟩)
    succeeded

/-- **The address of every line is the start of the program plus the sizes of the lines before it**,
the program is as long as all its lines and ends in the address space, and a label that stands for
the place of its line is a symbol with the address of the line. -/
theorem addressed (succeeded : ofSource source = .ok placement) : placement.Addressed := by
  have follows := Placement.follows succeeded
  refine ⟨fun before line after split => ?_, ?_, (Placement.limit_le succeeded).2,
    fun line member labels label labelled => ?_⟩
  · rw [split] at follows
    exact follows.address_eq
  · have limit := follows.limit_eq
    omega
  · obtain ⟨placing, ⟨_, located⟩, rfl⟩ := ofSource_located succeeded
    obtain ⟨symbol, known, isAddress⟩ := located line member labels label labelled
    exact ⟨symbol, SymbolTable.Builder.get?_build_of_get? known,
      Value.ofSymbol_eq_address_iff.mp isAddress⟩

/-- A program with literals in two pools, and with labels on lines of several kinds. -/
def pooledSource : String :=
  "P START 4096\n EXTDEF TOP,BUF\nTOP LDA =C'EOF'\nK EQU 7\nMID LTORG\nBUF RESW 2\n" ++
  "LAST +LDA =-1\nB NOBASE\n LDA =C'EOF'\n END TOP\n"

theorem addressed_pooledSource :
    ∃ placement, ofSource pooledSource = .ok placement ∧ placement.Addressed ∧
      placement.lines.map PlacedLine.address =
        [4096, 4096, 4096, 4099, 4099, 4099, 4102, 4108, 4112, 4112, 4115, 4115] := by
  obtain ⟨placement, placed, addresses⟩ : ∃ placement, ofSource pooledSource = .ok placement ∧
      placement.lines.map PlacedLine.address =
        [4096, 4096, 4096, 4099, 4099, 4099, 4102, 4108, 4112, 4112, 4115, 4115] :=
    exists_ok_of_map (by decide +kernel)
  exact ⟨placement, placed, addressed placed, addresses⟩

end Placement

end Sicxe
