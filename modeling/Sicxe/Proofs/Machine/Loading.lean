import Sicxe.Machine.Loading
import Sicxe.Proofs.Object.Fixups
import Sicxe.Proofs.Success

/-!
# Loading

* `Object.codeAt_eq_ok_iff`: the code of a module can be fixed up for an address when the run of
  its fix-ups succeeds and the module defines its own imports.
* `Machine.load_eq_ok_iff`: a module is loaded when its code can be fixed up and there is room for
  it, and `Machine.loadedAt` is the machine that comes of it.
-/

namespace Sicxe

open Relocation (FixedBy)

namespace Object

variable {symbols : SymbolTable} {base : UInt32} {code fixed : Array UInt8}

theorem fixUpLocal_eq_ok_iff {record : Relocation} :
    fixUpLocal symbols base code record = .ok fixed ↔
      ∃ target, symbols.address? record.symbol = some target ∧
        record.apply code target.toNat base.toNat = .ok fixed := by
  unfold fixUpLocal
  cases symbols.address? record.symbol with
  | none => simp
  | some target =>
    simp only [Option.some.injEq, exists_eq_left']
    cases record.apply code target.toNat base.toNat <;> simp

/-- The fix-ups of a loaded module are a run over its records. -/
theorem foldlM_fixUpLocal_eq_ok_iff {records : List Relocation} :
    records.foldlM (fixUpLocal symbols base) code = .ok fixed ↔
      FixedBy symbols.address? base.toNat records code fixed := by
  have run : records.foldlM (fixUpLocal symbols base) code = .ok fixed ↔
      FixedBy symbols.address? base.toNat (records.map id) code fixed :=
    ⟨FixedBy.of_foldlM id fixUpLocal_eq_ok_iff.mp,
      FixedBy.foldlM_eq_ok id rfl fun _ found applied =>
        fixUpLocal_eq_ok_iff.mpr ⟨_, found, applied⟩⟩
  rw [run, List.map_id]

/-- **The code of a module can be fixed up** when each field can and every import is a symbol of the
module itself. -/
theorem codeAt_eq_ok_iff {object : Object} :
    object.codeAt base symbols = .ok fixed ↔
      FixedBy symbols.address? base.toNat object.relocations object.code fixed ∧
        ∀ name ∈ object.imports, symbols.contains name = true := by
  have imported : (object.imports.find? fun name => !symbols.contains name) = none ↔
      ∀ name ∈ object.imports, symbols.contains name = true := by
    simp only [List.find?_eq_none, Bool.not_eq_true', Bool.not_eq_false]
  rw [codeAt, bind_eq_ok_iff, ← imported]
  simp only [foldlM_fixUpLocal_eq_ok_iff]
  constructor
  · rintro ⟨code, run, finished⟩
    split at finished
    · cases finished
    · rename_i complete
      cases finished
      exact ⟨run, complete⟩
  · rintro ⟨run, complete⟩
    refine ⟨fixed, run, ?_⟩
    rw [complete]
    rfl

/-- The symbols of a module at their places in memory. -/
def symbolsAt (object : Object) (base : UInt32) : SymbolTable :=
  object.symbols.rebased object.start base

/-- The address in memory where execution of a module begins. -/
def entryAt (object : Object) (base : UInt32) : UInt32 :=
  base + (object.entry - object.start)

end Object

namespace Machine

variable {machine : Machine} {object : Object} {base : Option UInt32}

/-- The machine that has code at an address and is ready to run from `entry`. -/
def loadedAt (machine : Machine) (address : UInt32) (code : Array UInt8) (entry : UInt32) :
    Machine where
  memory := machine.memory.put address.toNat code.toList
  registers := (({} : Registers).set .L haltAddress).setCounter entry.toNat

/-- **A module is loaded when its code can be fixed up and there is room for it.** -/
theorem load_eq_ok_iff {result : Machine × LoadReport} :
    machine.load object base = .ok result ↔
      ∃ code, object.codeAt (object.loadBase base) (object.symbolsAt (object.loadBase base)) =
          .ok code ∧
        (object.loadBase base).toNat + code.size ≤ machine.memory.size ∧
        result = (machine.loadedAt (object.loadBase base) code
            (object.entryAt (object.loadBase base)),
          ⟨object.loadBase base, object.length, object.entryAt (object.loadBase base),
            object.symbolsAt (object.loadBase base)⟩) := by
  unfold load
  simp only [bind_eq_ok_iff, pure_eq_ok_iff]
  constructor
  · rintro ⟨code, fixed, memory, written, same⟩
    unfold Memory.write at written
    split at written
    · rename_i room
      cases written
      exact ⟨code, fixed, by simpa using room, same.symm⟩
    · cases written
  · rintro ⟨code, fixed, room, same⟩
    refine ⟨code, fixed, _, if_pos ?_, same.symm⟩
    rw [Array.length_toList]
    exact room

/-- **A loaded machine holds the fixed code of the module.** -/
theorem load_holds {loaded : Machine} {report : LoadReport} {base : UInt32}
    (movable : object.fullyRelocated = false)
    (succeeded : machine.load object (some base) = .ok (loaded, report)) :
    ∃ fixed, FixedBy (object.symbolsAt base).address? base.toNat object.relocations object.code
        fixed ∧
      Bytes.Agree loaded.memory.bytes base.toNat fixed object.code.size ∧
      base.toNat + object.code.size ≤ loaded.memory.size := by
  obtain ⟨fixed, fixable, room, same⟩ := load_eq_ok_iff.mp succeeded
  have isBase : object.loadBase (some base) = base := by
    rw [Object.loadBase, movable]
    rfl
  rw [isBase] at fixable room same
  cases same
  obtain ⟨run, _⟩ := Object.codeAt_eq_ok_iff.mp fixable
  have size := run.size_eq
  have written : (machine.memory.put base.toNat fixed.toList).size = machine.memory.size :=
    Bytes.size_write ..
  refine ⟨fixed, run, ?_, ?_⟩
  · rw [← size]
    exact Bytes.Agree.of_write _ _ room
  · show base.toNat + object.code.size ≤ (machine.memory.put base.toNat fixed.toList).size
    omega

end Machine

end Sicxe
