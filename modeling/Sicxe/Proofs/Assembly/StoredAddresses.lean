import Sicxe.Proofs.Assembly.Base
import Sicxe.Proofs.Assembly.Emission
import Sicxe.Proofs.Assembly.Evaluation
import Sicxe.Proofs.Assembly.Moved.Value

/-!
# Addresses that operands set

Three statements keep the value of their operand as an address of 32 bits: `EQU` for its label,
`BASE` as the base address, and `END` as the entry of the module. A constant of an `EQU` is checked
against 24 bits; everything else is cut to its low 32 bits.

* `Placement.ofSource_end`: a program has exactly one `END` line.
* `Emission.entry_emitAll`: only an `END` line changes the entry.
* `assemble_keepsValue`: **the kept address is the value of the operand in 32 bits**, and is the
  value itself exactly if that fits.
-/

namespace Sicxe

/-- A line keeps the value of its operand as an address. -/
def PlacedLine.SetsAddress (line : PlacedLine) : Prop :=
  line.command = .directive .EQU ∨ line.command = .directive .BASE ∨
    line.command = .directive .END ∧ line.operand.isSome = true

instance (line : PlacedLine) : Decidable line.SetsAddress :=
  inferInstanceAs (Decidable (_ ∨ _ ∨ _ ∧ _))

/-! ### The last line -/

namespace LiteralPool

theorem command_dataLine_ne_end (literal : String) (address size : Nat) :
    (dataLine literal address size).command ≠ .directive .END := by
  rcases command_dataLine literal address size with command | command <;> simp [command]

end LiteralPool

namespace Emission

open Placement

variable {placement : Placement} {emission final : Emission} {line : PlacedLine}
variable {before lines : List PlacedLine}

theorem exists_last_emit (reached : emission.emitAll placement (before ++ [line]) = .ok final) :
    ∃ middle : Emission, middle.emit placement line = .ok final := by
  obtain ⟨middle, _, last⟩ := emitAll_append_iff.mp reached
  obtain ⟨_, one, same⟩ := emitAll_cons_iff.mp last
  cases same
  exact ⟨middle, one⟩

/-- Only `END` sets the entry. -/
theorem entry_emitAll (others : ∀ line ∈ lines, line.command ≠ .directive .END)
    (succeeded : emission.emitAll placement lines = .ok final) : final.entry = emission.entry := by
  induction lines generalizing emission with
  | nil =>
    cases succeeded
    rfl
  | cons line rest ih =>
    obtain ⟨next, one, later⟩ := emitAll_cons_iff.mp succeeded
    obtain ⟨_, _, _, entered, _⟩ := emit_cases one
    have isOther := others line List.mem_cons_self
    rw [ih (fun other member => others other (List.mem_cons_of_mem _ member)) later]
    unfold nextEntry at entered
    split at entered
    · rename_i isEnd _
      exact absurd isEnd isOther
    · exact (Except.ok.inj entered).symm

end Emission

namespace Placement

variable {source : String} {placement : Placement} {object : Object} {line : PlacedLine}
variable {address : UInt32}

/-- **A program has exactly one `END` line.** -/
theorem ofSource_end (succeeded : ofSource source = .ok placement) :
    ∃ before line after, placement.lines = before ++ line :: after ∧
      line.command = .directive .END ∧
      (∀ other ∈ before, other.command ≠ .directive .END) ∧
      ∀ other ∈ after, other.command ≠ .directive .END := by
  -- No line is an `END` before the last statement; the literals behind it are data.
  obtain ⟨earlier, placing, _, _, _, statement, before, _, isEnd, placed, rfl⟩ := ofSource_ends
    (motive := fun placing => ∀ line ∈ placing.lines.toList, line.command ≠ .directive .END)
    (fun _ member => by cases member)
    (fun _ before _ _ goesOn placed => by
      intro line member
      rcases (Placing.place_cases placed).of_mem_lines member with
        old | ⟨_, rfl, _⟩ | ⟨text, address, size, rfl⟩
      · exact before line old
      · exact goesOn
      · exact LiteralPool.command_dataLine_ne_end text address size)
    succeeded
  obtain ⟨_, _, pool, lines, literals, _⟩ := (Placing.place_cases placed).lines_eq
  refine ⟨_, _, pool, lines, isEnd, before, fun other member => ?_⟩
  obtain ⟨text, literal, _, isData⟩ := literals other member
  rw [isData]
  exact LiteralPool.command_dataLine_ne_end text other.address literal.size

/-! ### Kept addresses -/

/-- The address that an assembled program keeps for the operand of a line. -/
inductive Keeps (placement : Placement) (object : Object) : PlacedLine → UInt32 → Prop
  /-- The address of the label of an `EQU`. -/
  | equal {line : PlacedLine} {label : String} {symbol : Symbol}
      (isEqual : line.command = .directive .EQU) (labelled : line.label = some label)
      (found : object.symbols.get? label = some symbol) :
      Keeps placement object line symbol.address
  /-- The base address that is in force behind a `BASE` line. -/
  | base {before after : List PlacedLine} {line : PlacedLine} {emission : Emission}
      {address : UInt32} (split : placement.lines = before ++ line :: after)
      (isBase : line.command = .directive .BASE)
      (reached : placement.emptyEmission.emitAll placement (before ++ [line]) = .ok emission)
      (inForce : emission.base = some address) : Keeps placement object line address
  /-- The entry of the module. -/
  | entry {line : PlacedLine} (isEnd : line.command = .directive .END) :
      Keeps placement object line object.entry

theorem toObject_cases (made : placement.toObject = .ok object) :
    ∃ emission, placement.emptyEmission.emitAll placement placement.lines = .ok emission ∧
      object.entry = emission.entry ∧ object.symbols = placement.symbols := by
  rw [toObject_eq] at made
  obtain ⟨emission, emitted, rfl⟩ := map_eq_ok_iff.mp made
  exact ⟨emission, emitted, rfl, rfl⟩

/-- The only address that is kept for the operand of a line is its value in 32 bits. -/
structure KeepsLowBits (placement : Placement) (object : Object) (line : PlacedLine)
    (value : Value) : Prop where
  evaluated : placement.eval (line.operand.getD "") line.address = .ok value
  isLocal : value.isLocal = true
  kept : placement.Keeps object line (UInt32.ofInt value.constant)
  only : ∀ address, placement.Keeps object line address → address = UInt32.ofInt value.constant

/-- A kept address is the value itself exactly if that fits in 32 bits. -/
theorem KeepsLowBits.toNat_eq {value : Value}
    (keepsLowBits : placement.KeepsLowBits object line value)
    (keeps : placement.Keeps object line address) :
    (address.toNat : Int) = value.constant % 0x100000000 ∧
      ((address.toNat : Int) = value.constant ↔ value.Fits) := by
  rw [keepsLowBits.only address keeps, toNat_ofInt_emod, Value.Fits]
  refine ⟨rfl, ?_⟩
  omega

/-- An `EQU` keeps its value as the address of its label, and a constant is checked. -/
theorem keepsLowBits_equal (placed : ofSource source = .ok placement)
    (symbols : object.symbols = placement.symbols) (member : line ∈ placement.lines)
    (isEqual : line.command = .directive .EQU) :
    ∃ value, placement.KeepsLowBits object line value ∧
      (value.isAbsolute = true → 0 ≤ value.constant ∧ value.constant ≤ 0xFFFFFF) ∧
      ∃ label symbol, line.label = some label ∧ object.symbols.get? label = some symbol ∧
        symbol.absolute = value.isAbsolute := by
  obtain ⟨value, evaluated, taken⟩ := exists_value placed member (.inl isEqual)
  cases taken with
  | @equal label symbol _ labelled isLocal inRange found isAddress moves =>
    rw [← symbols] at found
    refine ⟨value, ⟨evaluated, isLocal, isAddress ▸ .equal isEqual labelled found,
      fun address keeps => ?_⟩, inRange, label, symbol, labelled, found, moves⟩
    cases keeps with
    | equal _ labelledAgain foundAgain =>
      cases labelled.symm.trans labelledAgain
      cases found.symm.trans foundAgain
      exact isAddress
    | base _ isBase => cases isEqual.symm.trans isBase
    | entry isEnd => cases isEqual.symm.trans isEnd
  | bytes isBytes => cases isEqual.symm.trans isBytes
  | words isWords => cases isEqual.symm.trans isWords

/-- The base address behind a `BASE` line is the value of its operand in 32 bits. -/
theorem base_of_emit {emission next : Emission} (isBase : line.command = .directive .BASE)
    (one : emission.emit placement line = .ok next) :
    ∃ text value, line.operand = some text ∧ placement.eval text line.address = .ok value ∧
      value.isLocal = true ∧ next.base = some (UInt32.ofInt value.constant) := by
  obtain ⟨_, _, based, _⟩ := Emission.emit_cases one
  simp only [nextBase, isBase] at based
  obtain ⟨text, given, based⟩ := bind_eq_ok_iff.mp based
  obtain ⟨address, found, same⟩ := bind_eq_ok_iff.mp based
  obtain ⟨value, evaluated, isLocal, rfl⟩ := localAddress_eq_ok_iff.mp found
  exact ⟨text, value, getOperand_eq_ok_iff.mp given, evaluated, isLocal, (Except.ok.inj same).symm⟩

/-- A `BASE` line keeps its value as the base address. -/
theorem keepsLowBits_base (made : placement.toObject = .ok object) (member : line ∈ placement.lines)
    (isBase : line.command = .directive .BASE) :
    ∃ value, placement.KeepsLowBits object line value := by
  obtain ⟨final, emitted, _, _⟩ := toObject_cases made
  obtain ⟨before, after, split⟩ := List.append_of_mem member
  have inTwo : before ++ line :: after = (before ++ [line]) ++ after := by simp
  rw [split, inTwo] at emitted
  obtain ⟨next, reached, _⟩ := Emission.emitAll_append_iff.mp emitted
  obtain ⟨_, one⟩ := Emission.exists_last_emit reached
  obtain ⟨text, value, given, evaluated, isLocal, inForce⟩ := base_of_emit isBase one
  have operand : line.operand.getD "" = text := by rw [given, Option.getD_some]
  refine ⟨value, operand ▸ evaluated, isLocal, .base split isBase reached inForce,
    fun address keeps => ?_⟩
  cases keeps with
  | equal isEqual => cases isBase.symm.trans isEqual
  | base _ _ reachedAgain inForceAgain =>
    obtain ⟨_, one⟩ := Emission.exists_last_emit reachedAgain
    obtain ⟨_, _, givenAgain, evaluatedAgain, _, again⟩ := base_of_emit isBase one
    cases given.symm.trans givenAgain
    cases evaluated.symm.trans evaluatedAgain
    exact Option.some.inj (inForceAgain.symm.trans again)
  | entry isEnd => cases isBase.symm.trans isEnd

/-- An `END` line keeps the value of its operand as the entry. -/
theorem keepsLowBits_end (placed : ofSource source = .ok placement)
    (made : placement.toObject = .ok object) (member : line ∈ placement.lines)
    (isEnd : line.command = .directive .END) (given : line.operand.isSome = true) :
    ∃ value, placement.KeepsLowBits object line value := by
  obtain ⟨final, emitted, entry, _⟩ := toObject_cases made
  obtain ⟨before, last, after, split, _, notBefore, notAfter⟩ := ofSource_end placed
  have isLast : line = last := by
    rw [split, List.mem_append, List.mem_cons] at member
    rcases member with inBefore | same | inAfter
    · exact absurd isEnd (notBefore line inBefore)
    · exact same
    · exact absurd isEnd (notAfter line inAfter)
  subst isLast
  rw [split] at emitted
  obtain ⟨middle, _, later⟩ := Emission.emitAll_append_iff.mp emitted
  obtain ⟨next, one, rest⟩ := Emission.emitAll_cons_iff.mp later
  obtain ⟨_, _, _, entered, _⟩ := Emission.emit_cases one
  obtain ⟨text, given⟩ := Option.isSome_iff_exists.mp given
  simp only [nextEntry, isEnd, given] at entered
  obtain ⟨value, evaluated, isLocal, same⟩ := localAddress_eq_ok_iff.mp entered
  have stored : object.entry = UInt32.ofInt value.constant := by
    rw [entry, Emission.entry_emitAll notAfter rest, same]
  have operand : line.operand.getD "" = text := by rw [given, Option.getD_some]
  refine ⟨value, operand ▸ evaluated, isLocal, stored ▸ .entry isEnd, fun address keeps => ?_⟩
  cases keeps with
  | equal isEqual => cases isEnd.symm.trans isEqual
  | base _ isBase => cases isEnd.symm.trans isBase
  | entry => exact stored

/-- Every operand that sets an address is kept in 32 bits. -/
theorem exists_keepsLowBits (assembled : assemble source = .ok (placement, object))
    (member : line ∈ placement.lines) (sets : line.SetsAddress) :
    ∃ value, placement.KeepsLowBits object line value := by
  obtain ⟨placed, made⟩ := assemble_cases assembled
  obtain ⟨_, _, _, symbols⟩ := toObject_cases made
  rcases sets with isEqual | isBase | ⟨isEnd, given⟩
  · obtain ⟨value, keeps, _⟩ := keepsLowBits_equal placed symbols member isEqual
    exact ⟨value, keeps⟩
  · exact keepsLowBits_base made member isBase
  · exact keepsLowBits_end placed made member isEnd given

end Placement

/-- **The assembler keeps the operands of `EQU`, `BASE` and `END` in 32 bits.** Of every such line
of a program that assembles, exactly one address is kept: the low 32 bits of the value of the
operand, which is a constant or an address of the program. So it is the value itself exactly if that
fits in 32 bits. Only the constant of an `EQU` is known to fit. -/
theorem assemble_keepsValue {source : String} {placement : Placement} {object : Object}
    {line : PlacedLine} (assembled : assemble source = .ok (placement, object))
    (member : line ∈ placement.lines) (sets : line.SetsAddress) :
    ∃ value, placement.eval (line.operand.getD "") line.address = .ok value ∧
      value.isLocal = true ∧
      (∃ address, placement.Keeps object line address) ∧
      (∀ address, placement.Keeps object line address →
        (address.toNat : Int) = value.constant % 0x100000000 ∧
          ((address.toNat : Int) = value.constant ↔ value.Fits)) ∧
      (line.command = .directive .EQU →
        (value.isAbsolute = true → 0 ≤ value.constant ∧ value.constant ≤ 0xFFFFFF) ∧
        ∃ label symbol, line.label = some label ∧ object.symbols.get? label = some symbol ∧
          symbol.absolute = value.isAbsolute) := by
  obtain ⟨value, keeps⟩ := Placement.exists_keepsLowBits assembled member sets
  refine ⟨value, keeps.evaluated, keeps.isLocal, ⟨_, keeps.kept⟩,
    fun address isKept => keeps.toNat_eq isKept, fun isEqual => ?_⟩
  obtain ⟨placed, made⟩ := assemble_cases assembled
  obtain ⟨_, _, _, symbols⟩ := Placement.toObject_cases made
  obtain ⟨other, keepsOther, inRange, labelled⟩ :=
    Placement.keepsLowBits_equal placed symbols member isEqual
  cases keeps.evaluated.symm.trans keepsOther.evaluated
  exact ⟨inRange, labelled⟩

/-- A program that keeps the address 20 in all three ways. -/
theorem assemble_keepsValue_twenty :
    ∃ placement object,
      assemble "P START 16\nX EQU *+4\n BASE X\n RESB 8\n END X" = .ok (placement, object) ∧
        (placement.lines.filter fun line => line.SetsAddress).length = 3 ∧
        ∀ line ∈ placement.lines, line.SetsAddress →
          ∃ address, placement.Keeps object line address ∧ (address.toNat : Int) = 20 := by
  obtain ⟨⟨placement, object⟩, assembled, same⟩ := exists_ok_of_map
    (show ((assemble "P START 16\nX EQU *+4\n BASE X\n RESB 8\n END X").map fun made =>
        ((made.1.lines.filter fun line => line.SetsAddress).length,
          decide (∀ line ∈ made.1.lines, line.SetsAddress →
            (made.1.eval (line.operand.getD "") line.address).toOption =
              some ⟨20, 1, none⟩))).toOption = some (3, true) by
      decide +kernel)
  obtain ⟨count, evaluates⟩ := Prod.mk.inj same
  refine ⟨placement, object, assembled, count, fun line member sets => ?_⟩
  have evaluated := ok_of_toOption (of_decide_eq_true evaluates line member sets)
  obtain ⟨value, isValue, _, ⟨address, kept⟩, exact, _⟩ :=
    assemble_keepsValue assembled member sets
  cases evaluated.symm.trans isValue
  exact ⟨address, kept, (exact address kept).2.mpr ⟨by decide, by decide⟩⟩

/-- **An address below the program is kept as the highest address of 32 bits**, for a label, as the
base and as the entry. -/
theorem assemble_keepsValue_negative :
    ∃ placement object,
      assemble "X EQU *-1\n BASE *-1\n END *-1" = .ok (placement, object) ∧
        placement.lines.map PlacedLine.command =
          [.directive .EQU, .directive .BASE, .directive .END] ∧
        ∀ line ∈ placement.lines,
          placement.eval (line.operand.getD "") line.address = .ok ⟨-1, 1, none⟩ ∧
            placement.Keeps object line 0xFFFFFFFF ∧ ((0xFFFFFFFF : UInt32).toNat : Int) ≠ -1 := by
  obtain ⟨⟨placement, object⟩, assembled, same⟩ := exists_ok_of_map
    (show ((assemble "X EQU *-1\n BASE *-1\n END *-1").map fun made =>
        (made.1.lines.map PlacedLine.command,
          decide (∀ line ∈ made.1.lines, line.SetsAddress ∧
            (made.1.eval (line.operand.getD "") line.address).toOption =
              some ⟨-1, 1, none⟩))).toOption =
      some ([.directive .EQU, .directive .BASE, .directive .END], true) by
      decide +kernel)
  obtain ⟨commands, evaluates⟩ := Prod.mk.inj same
  refine ⟨placement, object, assembled, commands, fun line member => ?_⟩
  obtain ⟨sets, found⟩ := of_decide_eq_true evaluates line member
  have evaluated := ok_of_toOption found
  obtain ⟨value, keeps⟩ := Placement.exists_keepsLowBits assembled member sets
  cases evaluated.symm.trans keeps.evaluated
  have highest : UInt32.ofInt (-1) = 0xFFFFFFFF := by decide
  exact ⟨evaluated, highest ▸ keeps.kept, by decide⟩

end Sicxe
