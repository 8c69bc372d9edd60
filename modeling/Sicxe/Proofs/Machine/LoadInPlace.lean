import Sicxe.Proofs.Machine.History
import Sicxe.Proofs.Machine.InPlace
import Sicxe.Proofs.Machine.Loading

/-!
# Loading in place

A module can also be loaded in place: its code is copied to memory, the registers and the status are
cleared, and L and the counter are put, each at its own moment. `loadObject` is written in that way.
A load could then leave a machine half changed, and this module shows that it does not.

* `Object.codeAt_eq_error_iff`, `LoadFailure`, `load_eq_error_iff`: what a load can fail with, and
  exactly when.
* `loadObject_eq`: loading in place comes to the machine that `load` works out, and a failure comes
  to the machine as it was.
* `LoadedFrom`, `loadedFrom_of_load`: memory, registers and status of a machine after a load.
* `loadObject_cases`: **loading is all or nothing.**
-/

namespace Sicxe

open Relocation (FixedBy)

namespace Object

/-- The symbols of `object` at their places stop its code from being fixed up for `base`. -/
inductive Unfixable (object : Object) (base : UInt32) (symbols : SymbolTable) : MachineError → Prop
  /-- The symbol of a record is not a symbol of the module. -/
  | symbol {before after : List Relocation} {record : Relocation} {code : Array UInt8}
      (split : object.relocations = before ++ record :: after)
      (run : FixedBy symbols.address? base.toNat before object.code code)
      (absent : symbols.address? record.symbol = none) :
      Unfixable object base symbols (.unresolvedSymbol record.symbol)
  /-- The field of a record cannot be resolved. -/
  | field {before after : List Relocation} {record : Relocation} {code : Array UInt8}
      {target : UInt32} {error : ObjectError}
      (split : object.relocations = before ++ record :: after)
      (run : FixedBy symbols.address? base.toNat before object.code code)
      (found : symbols.address? record.symbol = some target)
      (failed : record.apply code target.toNat base.toNat = .error error) :
      Unfixable object base symbols (.object error)
  /-- An import is not a symbol of the module. -/
  | imported {before after : List String} {name : String} {fixed : Array UInt8}
      (run : FixedBy symbols.address? base.toNat object.relocations object.code fixed)
      (split : object.imports = before ++ name :: after)
      (known : ∀ other ∈ before, symbols.contains other = true)
      (absent : symbols.contains name = false) :
      Unfixable object base symbols (.unresolvedSymbol name)

variable {symbols : SymbolTable} {base : UInt32} {code : Array UInt8} {error : MachineError}

theorem fixUpLocal_eq_error_iff {record : Relocation} :
    fixUpLocal symbols base code record = .error error ↔
      (symbols.address? record.symbol = none ∧ .unresolvedSymbol record.symbol = error) ∨
        ∃ target reason, symbols.address? record.symbol = some target ∧
          record.apply code target.toNat base.toNat = .error reason ∧ .object reason = error := by
  unfold fixUpLocal
  cases symbols.address? record.symbol with
  | none => simp
  | some target =>
    simp only [reduceCtorEq, false_and, false_or, Option.some.injEq, exists_and_left,
      exists_eq_left']
    cases record.apply code target.toNat base.toNat <;> simp

/-- The first import that is not a symbol of the module. -/
theorem find?_import_eq_some_iff {object : Object} {name : String} :
    (object.imports.find? fun name => !symbols.contains name) = some name ↔
      symbols.contains name = false ∧ ∃ before after, object.imports = before ++ name :: after ∧
        ∀ other ∈ before, symbols.contains other = true := by
  simp only [List.find?_eq_some_iff_append, Bool.not_eq_true', Bool.not_not]

/-- **Why the code of a module cannot be fixed up.** -/
theorem codeAt_eq_error_iff {object : Object} :
    object.codeAt base symbols = .error error ↔ object.Unfixable base symbols error := by
  rw [codeAt, bind_eq_error_iff, foldlM_eq_error_iff]
  simp only [foldlM_fixUpLocal_eq_ok_iff, fixUpLocal_eq_error_iff]
  constructor
  · rintro (⟨before, record, after, middle, split, run, refused⟩ | ⟨fixed, run, refused⟩)
    · obtain ⟨absent, rfl⟩ | ⟨target, reason, found, failed, rfl⟩ := refused
      · exact .symbol split run absent
      · exact .field split run found failed
    · cases missing : object.imports.find? fun name => !symbols.contains name with
      | none =>
        rw [missing] at refused
        cases refused
      | some name =>
        rw [missing] at refused
        cases refused
        obtain ⟨absent, before, after, split, known⟩ := find?_import_eq_some_iff.mp missing
        exact .imported run split known absent
  · intro unfixable
    cases unfixable with
    | symbol split run absent =>
      exact .inl ⟨_, _, _, _, split, run, .inl ⟨absent, rfl⟩⟩
    | field split run found failed =>
      exact .inl ⟨_, _, _, _, split, run, .inr ⟨_, _, found, failed, rfl⟩⟩
    | imported run split known absent =>
      refine .inr ⟨_, run, ?_⟩
      rw [find?_import_eq_some_iff.mpr ⟨absent, _, _, split, known⟩]

end Object

namespace Machine

open Changing

/-! ### Failures -/

/-- A module cannot be loaded at an address of a machine. -/
inductive LoadFailure (machine : Machine) (object : Object) (base : UInt32) : MachineError → Prop
  /-- Its code cannot be fixed up. -/
  | unfixable {error : MachineError}
      (unfixable : object.Unfixable base (object.symbolsAt base) error) :
      LoadFailure machine object base error
  /-- Its code goes beyond the end of memory. -/
  | outside {fixed : Array UInt8}
      (fixable : object.codeAt base (object.symbolsAt base) = .ok fixed)
      (outside : machine.memory.size < base.toNat + object.length) :
      LoadFailure machine object base
        (.outOfBounds base.toNat object.length machine.memory.size)

variable {machine loaded : Machine} {object : Object} {base : Option UInt32}
variable {error : MachineError} {report : LoadReport}

theorem size_of_codeAt {address : UInt32} {symbols : SymbolTable} {fixed : Array UInt8}
    (fixable : object.codeAt address symbols = .ok fixed) : fixed.size = object.length :=
  (Object.codeAt_eq_ok_iff.mp fixable).1.size_eq

/-- **A load fails when the code cannot be fixed up or there is no room for it.** -/
theorem load_eq_error_iff :
    machine.load object base = .error error ↔
      LoadFailure machine object (object.loadBase base) error := by
  rw [load, bind_eq_error_iff]
  constructor
  · rintro (unfixable | ⟨fixed, fixable, refused⟩)
    · exact .unfixable (Object.codeAt_eq_error_iff.mp unfixable)
    · obtain outside | ⟨_, _, impossible⟩ := bind_eq_error_iff.mp refused
      · unfold Memory.write at outside
        split at outside
        · cases outside
        · rename_i room
          rw [Array.length_toList, size_of_codeAt fixable] at outside room
          cases outside
          exact .outside fixable (Nat.not_le.mp room)
      · cases impossible
  · intro failure
    cases failure with
    | unfixable unfixable => exact .inl (Object.codeAt_eq_error_iff.mpr unfixable)
    | outside fixable outside =>
      refine .inr ⟨_, fixable, bind_eq_error_iff.mpr (.inl ?_)⟩
      rw [Memory.write, Array.length_toList, size_of_codeAt fixable]
      exact if_neg (Nat.not_le.mpr outside)

/-! ### Loading in place -/

/-- Clears the registers and the status. -/
def restart : Changing Unit :=
  fun machine => (.ok (), machine.reset)

/-- Loads a module, one change after the other. -/
def loadObject (object : Object) (base : Option UInt32) : Changing LoadReport := do
  let base := object.loadBase base
  let symbols := object.symbols.rebased object.start base
  let code ← inspect fun _ => object.codeAt base symbols
  write base.toNat code.toList
  let entry := base + (object.entry - object.start)
  restart
  put .L haltAddress
  putCounter entry.toNat
  return ⟨base, object.length, entry, symbols⟩

/-- A machine and the result of loading into it. -/
def settleLoad (machine : Machine) :
    Except MachineError (Machine × LoadReport) → Except MachineError LoadReport × Machine
  | .ok (loaded, report) => (.ok report, loaded)
  | .error error => (.error error, machine)

/-- The changes after the code was written do not depend on the machine, but for its memory. -/
theorem restart_bind (machine : Machine) (link : Int) (entry : Nat) (report : LoadReport) :
    (restart >>= fun _ => put .L link >>= fun _ => putCounter entry >>= fun _ =>
        (pure report : Changing LoadReport)) machine =
      (.ok report, { memory := machine.memory
                     registers := (({} : Registers).set .L link).setCounter entry }) :=
  rfl

/-- **A load in place comes to the loaded machine, or leaves the machine as it was.** -/
theorem loadObject_eq (machine : Machine) (object : Object) (base : Option UInt32) :
    loadObject object base machine = settleLoad machine (machine.load object base) := by
  rw [loadObject, load, bind_apply, inspect]
  cases object.codeAt (object.loadBase base)
      (object.symbols.rebased object.start (object.loadBase base)) with
  | error error => rfl
  | ok code =>
    dsimp only
    rw [bind_apply, write]
    show _ = settleLoad machine
      (machine.memory.write (object.loadBase base).toNat code.toList >>= _)
    cases machine.memory.write (object.loadBase base).toNat code.toList with
    | error error => rfl
    | ok memory =>
      dsimp only
      rw [restart_bind]
      rfl

theorem perform_load (machine : Machine) (object : Object) (base : Option UInt32) :
    (Action.load object base).perform machine =
      (settleLoad machine (machine.load object base)).2 := by
  dsimp only [Action.perform]
  cases machine.load object base <;> rfl

/-! ### The loaded machine -/

/-- The machine `loaded` has come of `machine` by a load: `report` tells where the module was put,
and `fixed` is its code with all its records applied in order. -/
structure LoadedFrom (machine : Machine) (object : Object) (fixed : Array UInt8)
    (loaded : Machine) (report : LoadReport) : Prop where
  symbols : report.symbols = object.symbols.rebased object.start report.base
  run : FixedBy report.symbols.address? report.base.toNat object.relocations object.code fixed
  complete : ∀ name ∈ object.imports, report.symbols.contains name = true
  room : report.base.toNat + object.length ≤ machine.memory.size
  size : loaded.memory.size = machine.memory.size
  image : Bytes.slice loaded.memory.bytes report.base.toNat object.length = fixed.toList
  kept : ∀ index, index < report.base.toNat ∨ report.base.toNat + object.length ≤ index →
    loaded.memory.bytes[index]? = machine.memory.bytes[index]?
  link : loaded.registers.get .L = -1
  /-- The value that PC holds. -/
  pc : loaded.registers.get .PC =
    Word.signed (report.base.toNat + (object.entry.toNat - object.start.toNat))
  /-- The address in PC. -/
  counter : (loaded.registers.counter : Int) =
    (report.base.toNat + (object.entry.toNat - object.start.toNat)) % 0x1000000
  cleared : ∀ register, register ≠ .L → register ≠ .PC → loaded.registers.get register = 0
  running : loaded.halted = false
  fresh : loaded.fault = none
  steps : loaded.steps = 0

/-- The address where execution begins, as far as the counter can hold it. -/
theorem unsigned_entryAt (object : Object) (base : UInt32) :
    Word.unsigned (object.entryAt base).toNat =
      Word.unsigned (base.toNat + (object.entry.toNat - object.start.toNat)) := by
  rw [Word.unsigned_eq_iff, Object.entryAt, UInt32.toNat_add, UInt32.toNat_sub]
  have bound := object.start.toNat_lt
  omega

section Registers

variable (registers : Registers) (address : Nat)

theorem get_setCounter (register : Register) :
    (registers.setCounter address).get register =
      if register = .PC then Word.signed address else registers.get register :=
  registers.get_set .PC register address

theorem counter_eq_get : registers.counter = Word.unsigned (registers.get .PC) :=
  rfl

/-- The counter holds the low 24 bits of what was put into it. -/
theorem counter_setCounter :
    (registers.setCounter address).counter = Word.unsigned address := by
  rw [counter_eq_get, get_setCounter, if_pos rfl, Word.unsigned_signed]

/-- L holds the address on which a return halts the machine, and the other registers are clear. -/
theorem get_linked (register : Register) :
    (({} : Registers).set .L haltAddress).get register = if register = .L then -1 else 0 := by
  cases register <;> rfl

end Registers

theorem loadedFrom_of_load (succeeded : machine.load object base = .ok (loaded, report)) :
    report.base = object.loadBase base ∧
      ∃ fixed, machine.LoadedFrom object fixed loaded report := by
  obtain ⟨fixed, fixable, room, same⟩ := load_eq_ok_iff.mp succeeded
  cases same
  generalize object.loadBase base = address at fixable room ⊢
  obtain ⟨run, complete⟩ := Object.codeAt_eq_ok_iff.mp fixable
  have length : fixed.toList.length = object.length := by
    rw [Array.length_toList, size_of_codeAt fixable]
  have fits : address.toNat + fixed.toList.length ≤ machine.memory.bytes.size := by
    rw [Array.length_toList]
    exact room
  have entry := unsigned_entryAt object address
  have image := Bytes.slice_write_self machine.memory.bytes address.toNat fixed.toList fits
  have pc : (machine.loadedAt address fixed (object.entryAt address)).registers.get .PC =
      Word.signed (address.toNat + (object.entry.toNat - object.start.toNat)) := by
    show Registers.get (Registers.setCounter _ _) .PC = _
    rw [get_setCounter, if_pos rfl, ← Word.signed_unsigned, entry, Word.signed_unsigned]
  have counter : (machine.loadedAt address fixed (object.entryAt address)).registers.counter =
      Word.unsigned (address.toNat + (object.entry.toNat - object.start.toNat)) := by
    rw [← entry]
    exact counter_setCounter ..
  rw [length] at image fits
  refine ⟨rfl, fixed, {
    symbols := rfl, run, complete, room := fits, size := Bytes.size_write .., image,
    kept := fun index apart => ?_, link := ?_, pc, counter := ?_,
    cleared := fun register notL notPC => ?_, running := rfl, fresh := rfl, steps := rfl }⟩
  · rw [← length] at fits apart
    exact Bytes.getElem?_write_of_apart _ _ _ fits apart
  · show Registers.get (Registers.setCounter _ _) .L = -1
    rw [get_setCounter, if_neg (by decide), get_linked, if_pos rfl]
  · rw [counter, Word.unsigned]
    exact Int.toNat_of_nonneg (Int.emod_nonneg _ (by decide))
  · show Registers.get (Registers.setCounter _ _) register = 0
    rw [get_setCounter, if_neg notPC, get_linked, if_neg notL]

/-- **Loading is all or nothing**, for every machine, module and base. A load fails exactly with the
reasons of `LoadFailure`; also in place it then leaves the machine entirely as it was. A load that
succeeds puts the module at the base that it reports, and the machine is then as `LoadedFrom` says,
whatever it was before. -/
theorem loadObject_cases (machine : Machine) (object : Object) (base : Option UInt32) :
    (∀ error, machine.load object base = .error error ↔
        LoadFailure machine object (object.loadBase base) error) ∧
      (∀ error after, loadObject object base machine = (.error error, after) →
        machine.load object base = .error error ∧ after = machine ∧
          (Action.load object base).perform machine = machine) ∧
      ∀ report loaded, loadObject object base machine = (.ok report, loaded) →
        machine.load object base = .ok (loaded, report) ∧
          report.base = (if object.fullyRelocated then object.start else base.getD object.start) ∧
          ∃ fixed, machine.LoadedFrom object fixed loaded report := by
  refine ⟨fun error => load_eq_error_iff, ?_⟩
  rw [loadObject_eq, perform_load]
  cases outcome : machine.load object base with
  | error reason =>
    refine ⟨fun error after same => ?_, fun report loaded same => ?_⟩
    · cases same
      exact ⟨rfl, rfl, rfl⟩
    · cases congrArg Prod.fst same
  | ok result =>
    refine ⟨fun error after same => ?_, fun report loaded same => ?_⟩
    · cases congrArg Prod.fst same
    · cases same
      exact ⟨rfl, loadedFrom_of_load outcome⟩

/-- A module of one extended instruction that refers to its own start. -/
def selfLoading : Object where
  name := "A"
  start := 0x100
  entry := 0x100
  code := #[0x03, 0x10, 0x00, 0x07]
  symbols := ⟨[⟨"A", 0x100, true, false⟩]⟩
  relocations := [.address20 0 "A"]

/-- A machine that has halted after five steps. -/
def haltedMachine : Machine where
  memory := .zeros 1024
  halted := true
  steps := 5

/-- The module is loaded at 128, with the address in its field moved along; at 1021 it does not fit
into a memory of 1024 bytes, and nothing happens. -/
theorem loadObject_cases_selfLoading :
    (∃ report loaded fixed,
        loadObject selfLoading (some 128) haltedMachine = (.ok report, loaded) ∧
        report.base = 128 ∧ haltedMachine.LoadedFrom selfLoading fixed loaded report ∧
        Bytes.slice loaded.memory.bytes 128 4 = [0x03, 0x10, 0x00, 0x87]) ∧
      loadObject selfLoading (some 1021) haltedMachine =
        (.error (.outOfBounds 1021 4 1024), haltedMachine) ∧
      (Action.load selfLoading (some 1021)).perform haltedMachine = haltedMachine := by
  constructor
  · have found : ((haltedMachine.load selfLoading (some 128)).map fun result =>
        Bytes.slice result.1.memory.bytes 128 4).toOption = some [0x03, 0x10, 0x00, 0x87] := by
      decide +kernel
    obtain ⟨⟨loaded, report⟩, succeeded, slice⟩ := exists_ok_of_map found
    have run : loadObject selfLoading (some 128) haltedMachine = (.ok report, loaded) := by
      rw [loadObject_eq, succeeded]
      rfl
    obtain ⟨_, isBase, fixed, isLoaded⟩ :=
      (loadObject_cases haltedMachine selfLoading (some 128)).2.2 report loaded run
    exact ⟨report, loaded, fixed, run, isBase, isLoaded, slice⟩
  · have failed : haltedMachine.load selfLoading (some 1021) = .error (.outOfBounds 1021 4 1024) :=
      error_of_failure? (by decide +kernel)
    have run : loadObject selfLoading (some 1021) haltedMachine =
        (.error (.outOfBounds 1021 4 1024), haltedMachine) := by
      rw [loadObject_eq, failed]
      rfl
    obtain ⟨_, _, unchanged⟩ :=
      (loadObject_cases haltedMachine selfLoading (some 1021)).2.1 _ _ run
    exact ⟨run, unchanged⟩

end Machine

end Sicxe
