import Sicxe.Assembly.Encoding
import Sicxe.Proofs.Success

/-!
# The base in force

* `Placement.localAddress_eq_ok_iff`: the operand of `BASE` or `END` in 32 bits.
* `Placement.BaseValue`: the value of the operand of the last `BASE` line, unless a `NOBASE` line
  came after it. `Placement.exists_baseValue`: every base address is such a value in 32 bits.
* `Placement.BaseInForce`: the value is an address of the program. `Placement.base_eq_of_inForce`
  ties it to the base address that the encoding of a line goes by.
-/

namespace Sicxe

namespace Placement

/-- The `BASE` line in force behind one more line. -/
def nextBaseLine (inForce : Option PlacedLine) (line : PlacedLine) : Option PlacedLine :=
  match line.command with
  | .directive .BASE => some line
  | .directive .NOBASE => none
  | _ => inForce

/-- The `BASE` line in force behind some lines. -/
def baseLine? (lines : List PlacedLine) : Option PlacedLine :=
  lines.foldl nextBaseLine none

/-- Behind some lines a `BASE` line is in force whose operand has the value `base`. -/
def BaseValue (placement : Placement) (lines : List PlacedLine) (base : Value) : Prop :=
  ∃ line text, baseLine? lines = some line ∧ line.operand = some text ∧
    placement.eval text line.address = .ok base

/-- Behind some lines a `BASE` line is in force whose operand is the address `address` of the
program. -/
def BaseInForce (placement : Placement) (lines : List PlacedLine) (address : Int) : Prop :=
  ∃ line text, baseLine? lines = some line ∧ line.operand = some text ∧
    placement.eval text line.address = .ok ⟨address, 1, none⟩

variable {placement : Placement} {base final : Option UInt32} {inForce : Option PlacedLine}
variable {line : PlacedLine} {lines : List PlacedLine}

/-- A base address comes from the `BASE` line in force. -/
def ComesFrom (placement : Placement) (base : Option UInt32) (inForce : Option PlacedLine) : Prop :=
  match base, inForce with
  | some address, some line =>
    ∃ text, line.operand = some text ∧ placement.localAddress text line.address = .ok address
  | none, none => True
  | _, _ => False

theorem getOperand_eq_ok_iff {text : String} :
    line.getOperand = .ok text ↔ line.operand = some text := by
  unfold PlacedLine.getOperand
  cases line.operand with
  | none => simp only [reduceCtorEq]
  | some other => simp only [Except.ok.injEq, Option.some.injEq]

/-- An operand that must be a constant or an address of the program is taken in 32 bits. -/
theorem localAddress_eq_ok_iff {text : String} {here : Nat} {address : UInt32} :
    placement.localAddress text here = .ok address ↔
      ∃ value, placement.eval text here = .ok value ∧ value.isLocal = true ∧
        address = UInt32.ofInt value.constant := by
  rw [localAddress, bind_eq_ok_iff]
  refine exists_congr fun value => and_congr_right fun _ => ?_
  by_cases isLocal : value.isLocal = true
  · rw [if_pos isLocal, pure_eq_ok_iff]
    exact ⟨fun same => ⟨isLocal, same.symm⟩, fun same => same.2.symm⟩
  · rw [if_neg isLocal]
    exact ⟨fun impossible => (by cases impossible), fun same => absurd same.1 isLocal⟩

/-- One line keeps where the base comes from. -/
theorem ComesFrom.next (comes : placement.ComesFrom base inForce)
    (based : placement.nextBase base line = .ok final) :
    placement.ComesFrom final (nextBaseLine inForce line) := by
  unfold nextBase at based
  split at based
  · rename_i isBase
    have behind : nextBaseLine inForce line = some line := by
      simp only [nextBaseLine, isBase]
    obtain ⟨text, operand, based⟩ := bind_eq_ok_iff.mp based
    obtain ⟨address, found, same⟩ := bind_eq_ok_iff.mp based
    cases same
    rw [behind]
    exact ⟨text, getOperand_eq_ok_iff.mp operand, found⟩
  · rename_i isNoBase
    have behind : nextBaseLine inForce line = none := by
      simp only [nextBaseLine, isNoBase]
    cases based
    rw [behind]
    trivial
  · rename_i notBase notNoBase
    have behind : nextBaseLine inForce line = inForce := by
      unfold nextBaseLine
      split
      · rename_i isBase
        exact absurd isBase notBase
      · rename_i isNoBase
        exact absurd isNoBase notNoBase
      · rfl
    cases based
    rw [behind]
    exact comes

/-- **The base address behind some lines comes from the `BASE` line in force there.** -/
theorem ComesFrom.foldlM (comes : placement.ComesFrom base inForce)
    (reached : lines.foldlM placement.nextBase base = .ok final) :
    placement.ComesFrom final (lines.foldl nextBaseLine inForce) := by
  induction lines generalizing base inForce with
  | nil =>
    rw [foldlM_nil_eq_ok_iff] at reached
    subst reached
    exact comes
  | cons line rest ih =>
    obtain ⟨next, based, reached⟩ := foldlM_cons_eq_ok_iff.mp reached
    exact ih (comes.next based) reached

/-- **A base address in force is the value of a `BASE` line in 32 bits**, a constant or an address
of the program. -/
theorem exists_baseValue {address : UInt32}
    (reached : lines.foldlM placement.nextBase none = .ok (some address)) :
    ∃ base, placement.BaseValue lines base ∧ base.isLocal = true ∧
      address = UInt32.ofInt base.constant := by
  have start : placement.ComesFrom none none := trivial
  have comes := start.foldlM reached
  cases inForce : lines.foldl nextBaseLine none with
  | none =>
    rw [inForce] at comes
    exact comes.elim
  | some line =>
    rw [inForce] at comes
    obtain ⟨text, operand, found⟩ := comes
    obtain ⟨base, evaluated, isLocal, same⟩ := localAddress_eq_ok_iff.mp found
    exact ⟨base, ⟨line, text, inForce, operand, evaluated⟩, isLocal, same⟩

/-- **The base address in force is the operand of the `BASE` line in 32 bits.** -/
theorem base_eq_of_inForce {address : Int}
    (reached : lines.foldlM placement.nextBase none = .ok final)
    (isBase : placement.BaseInForce lines address) : final = some (UInt32.ofInt address) := by
  obtain ⟨line, text, inForce, operand, evaluated⟩ := isBase
  have start : placement.ComesFrom none none := trivial
  have comes := start.foldlM reached
  rw [show lines.foldl nextBaseLine none = some line from inForce] at comes
  cases final with
  | none => exact comes.elim
  | some stored =>
    obtain ⟨other, otherOperand, found⟩ := comes
    cases operand.symm.trans otherOperand
    obtain ⟨value, sameValue, _, rfl⟩ := localAddress_eq_ok_iff.mp found
    cases evaluated.symm.trans sameValue
    rfl

end Placement

end Sicxe
