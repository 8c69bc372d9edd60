import Sicxe.Proofs.Bytes
import Sicxe.Proofs.Machine.History

/-!
# What a step can change

Each operation has one place for its result: some bytes of memory, or a register. Everything else
stays as it was, but for the counter, which every step moves, and the condition code.

* `Mnemonic.storedBytes`, `Mnemonic.destination`, `Mnemonic.setsCode`: what an operation can change.
  The table of operations gives each of them a behavior that changes just this
  (`Operation.footprint_of_mem`).
* `Instruction.Does.get_eq`, `Instruction.Does.keepsStatus`, `Instruction.Does.stores`: what the
  effects of a behavior leave alone.
* `Machine.step_footprint`: **a step that succeeds changes nothing but the place of its result**,
  the counter and the condition code.
-/

namespace Sicxe

/-! ### What operations can change -/

/-- The register that the result of an operation goes to. -/
inductive Destination where
  | nowhere
  | fixed (register : Register)
  /-- The first register that a two-byte instruction names. -/
  | first
  /-- The second register that a two-byte instruction names. -/
  | second
  deriving DecidableEq, Repr

/-- The register that an instruction names in this place. -/
def Destination.register? (instruction : Instruction) : Destination → Option Register
  | nowhere => none
  | fixed register => some register
  | first =>
    match instruction with
    | .registers _ number _ => Register.ofNumber? number
    | _ => none
  | second =>
    match instruction with
    | .registers _ _ number => Register.ofNumber? number
    | _ => none

namespace Mnemonic

/-- The number of bytes that an operation stores. -/
def storedBytes : Mnemonic → Nat
  | STA | STX | STL | STB | STS | STT | STSW => 3
  | STF => 6
  | STCH => 1
  | _ => 0

/-- The register that an operation can change, apart from the counter and the condition code. -/
def destination : Mnemonic → Destination
  | LDA => .fixed .A
  | LDX => .fixed .X
  | LDL => .fixed .L
  | LDB => .fixed .B
  | LDS => .fixed .S
  | LDT => .fixed .T
  | LDF => .fixed .F
  | LDCH | ADD | SUB | MUL | DIV | AND | OR => .fixed .A
  | TIX | TIXR => .fixed .X
  | JSUB => .fixed .L
  | ADDR | SUBR | MULR | DIVR | RMO => .second
  | CLEAR | SHIFTL | SHIFTR => .first
  | _ => .nowhere

/-- Whether an operation can change the condition code. -/
def setsCode : Mnemonic → Bool
  | ADD | SUB | MUL | DIV | ADDR | SUBR | MULR | DIVR | COMP | COMPR | TIX | TIXR => true
  | _ => false

end Mnemonic

namespace Behavior

/-- The number of bytes that are stored. -/
def storedBytes : Behavior → Nat
  | store register => register.width.bits / 8
  | storeByte => 1
  | _ => 0

/-- The register that is changed, apart from the counter and the condition code. -/
def destination : Behavior → Destination
  | load register => .fixed register
  | loadByte | arithmetic _ => .fixed .A
  | countIndex | registerCountIndex => .fixed .X
  | call => .fixed .L
  | registerArithmetic _ | move => .second
  | clear | shiftLeft | shiftRight => .first
  | _ => .nowhere

/-- Whether the condition code is set. -/
def setsCode : Behavior → Bool
  | arithmetic operation | registerArithmetic operation => operation.setsCode
  | compare | registerCompare | countIndex | registerCountIndex => true
  | _ => false

end Behavior

/-- **Every operation behaves as its name says.** -/
theorem Operation.footprint_of_mem : ∀ operation ∈ Operation.table,
    operation.behavior.storedBytes = operation.mnemonic.storedBytes ∧
      operation.behavior.destination = operation.mnemonic.destination ∧
      operation.behavior.setsCode = operation.mnemonic.setsCode := by
  decide +kernel

/-! ### Registers -/

namespace Registers

variable {registers : Registers} {register : Register}

theorem get_set_of_ne (registers : Registers) {register other : Register} (value : Int)
    (different : other ≠ register) :
    (registers.set register value).get other = registers.get other := by
  rw [get_set, if_neg different]

theorem get_setCounter_of_ne (registers : Registers) (address : Nat) (other : register ≠ .PC) :
    (registers.setCounter address).get register = registers.get register :=
  registers.get_set_of_ne _ other

theorem get_setCode_of_ne (registers : Registers) (code : ConditionCode) (other : register ≠ .SW) :
    (registers.setCode code).get register = registers.get register :=
  registers.get_set_of_ne _ other

/-- **Setting the condition code keeps the other bits of SW.** -/
theorem sw_setCode (inWidth : registers.InWidth) (code : ConditionCode) :
    (registers.setCode code).sw / 4 = registers.sw / 4 := by
  have isWord : Register.SW.width = .word := rfl
  obtain ⟨least, greatest⟩ : -0x800000 ≤ registers.sw ∧ registers.sw < 0x800000 :=
    inWidth.word_bounds isWord
  have small : code.toNat < 4 := by cases code <;> decide
  have same : signExtend 24 (registers.sw - registers.sw % 4 + code.toNat) =
      registers.sw - registers.sw % 4 + code.toNat := by
    have count : valueCount 24 = 0x1000000 := rfl
    rw [signExtend, count, Int.bmod_def]
    split <;> omega
  show signExtend 24 (registers.sw - registers.sw % 4 + code.toNat) / 4 = registers.sw / 4
  rw [same]
  omega

end Registers

/-! ### What the effects of a behavior leave alone -/

namespace Instruction

variable {instruction : Instruction} {context : Context} {behavior : Behavior} {effect : Effect}
variable {register : Register}

theorem byNumber_eq_ok_iff {number : Nat} :
    Registers.byNumber number = .ok register ↔ Register.ofNumber? number = some register := by
  unfold Registers.byNumber
  cases Register.ofNumber? number with
  | none => simp only [reduceCtorEq]
  | some found => simp only [Except.ok.injEq, Option.some.injEq]

/-- An instruction with two half bytes has two bytes. -/
theorem halfBytes_cases {first second : Nat}
    (halves : instruction.halfBytes context = .ok (first, second)) :
    ∃ opcode, instruction = .registers opcode first second := by
  unfold halfBytes at halves
  split at halves
  · cases halves
    exact ⟨_, rfl⟩
  · cases halves

/-- The registers that an instruction works on are the ones that it names. -/
theorem registerPair_cases {first second : Register}
    (pair : instruction.registerPair context = .ok (first, second)) :
    Destination.first.register? instruction = some first ∧
      Destination.second.register? instruction = some second := by
  obtain ⟨⟨number, other⟩, halves, pair⟩ := bind_eq_ok_iff.mp pair
  obtain ⟨_, isFirst, pair⟩ := bind_eq_ok_iff.mp pair
  obtain ⟨_, isSecond, same⟩ := bind_eq_ok_iff.mp pair
  cases same
  obtain ⟨opcode, rfl⟩ := halfBytes_cases halves
  exact ⟨byNumber_eq_ok_iff.mp isFirst, byNumber_eq_ok_iff.mp isSecond⟩

/-- The register that a shift works on is the first one that it names. -/
theorem first_register? {number places : Nat}
    (halves : instruction.halfBytes context = .ok (number, places))
    (named : Registers.byNumber number = .ok register) :
    Destination.first.register? instruction = some register := by
  obtain ⟨opcode, rfl⟩ := halfBytes_cases halves
  exact byNumber_eq_ok_iff.mp named

theorem get_setResult {registers : Registers} {target : Register} (operation : Arithmetic)
    (result : Int) (other : register ≠ target) (notCode : register ≠ .SW) :
    (setResult registers target operation result).get register = registers.get register := by
  unfold setResult
  dsimp only
  split
  · rw [Registers.get_setCode_of_ne _ _ notCode, Registers.get_set_of_ne _ _ other]
  · rw [Registers.get_set_of_ne _ _ other]

theorem get_countIndex {registers : Registers} (limit : Int) (notIndex : register ≠ .X)
    (notCode : register ≠ .SW) :
    (countIndex registers limit).get register = registers.get register := by
  unfold countIndex
  rw [Registers.get_setCode_of_ne _ _ notCode, Registers.get_set_of_ne _ _ notIndex]

/-- **A register that is not the destination keeps its value.** -/
theorem Does.get_eq (does : Does instruction context behavior effect) (notCounter : register ≠ .PC)
    (notCode : register ≠ .SW)
    (other : behavior.destination.register? instruction ≠ some register) :
    effect.registers.get register = context.registers.get register := by
  have apart {target : Register}
      (isTarget : behavior.destination.register? instruction = some target) : register ≠ target :=
    fun same => other (same ▸ isTarget)
  cases does with
  | load | loadByte => exact Registers.get_set_of_ne _ _ (apart rfl)
  | store | storeByte | pass => rfl
  | arithmetic => exact get_setResult _ _ (apart rfl) notCode
  | compare code | registerCompare code => exact Registers.get_setCode_of_ne _ _ notCode
  | countIndex limit | registerCountIndex limit => exact get_countIndex _ (apart rfl) notCode
  | jump | returnToCaller => exact Registers.get_setCounter_of_ne _ _ notCounter
  | call =>
    rw [Registers.get_setCounter_of_ne _ _ notCounter, Registers.get_set_of_ne _ _ (apart rfl)]
  | registerArithmetic pair => exact get_setResult _ _ (apart (registerPair_cases pair).2) notCode
  | clear pair => exact Registers.get_set_of_ne _ _ (apart (registerPair_cases pair).1)
  | move pair => exact Registers.get_set_of_ne _ _ (apart (registerPair_cases pair).2)
  | shift value isShift halves named =>
    have isFirst := first_register? halves named
    refine Registers.get_set_of_ne _ _ (apart ?_)
    rcases isShift with rfl | rfl <;> exact isFirst

/-- The registers after an instruction keep all of SW, or all but the condition code. -/
structure KeepsStatus (before after : Registers) (setsCode : Bool) : Prop where
  upper : after.sw / 4 = before.sw / 4
  whole : setsCode = false → after.sw = before.sw

namespace KeepsStatus

variable {registers after : Registers} {setsCode : Bool}

theorem of_eq (same : after.get .SW = registers.get .SW) : KeepsStatus registers after setsCode :=
  ⟨congrArg (· / 4) same, fun _ => same⟩

theorem setCode (inWidth : after.InWidth) (same : after.get .SW = registers.get .SW)
    (code : ConditionCode) : KeepsStatus registers (after.setCode code) true :=
  ⟨(Registers.sw_setCode inWidth code).trans (congrArg (· / 4) same), nofun⟩

theorem setResult (inWidth : registers.InWidth) {target : Register} (operation : Arithmetic)
    (result : Int) (other : Register.SW ≠ target) :
    KeepsStatus registers (Instruction.setResult registers target operation result)
      operation.setsCode := by
  have same := registers.get_set_of_ne result other
  unfold Instruction.setResult
  dsimp only
  split
  · rename_i sets
    rw [sets]
    exact .setCode (inWidth.set target result) same _
  · exact .of_eq same

theorem countIndex (inWidth : registers.InWidth) (limit : Int) :
    KeepsStatus registers (Instruction.countIndex registers limit) true :=
  .setCode (inWidth.set .X _) (registers.get_set_of_ne _ nofun) _

end KeepsStatus

/-- **SW keeps its upper bits, and all of its bits where no condition code is set**, unless it is
the destination. -/
theorem Does.keepsStatus (does : Does instruction context behavior effect)
    (inWidth : context.registers.InWidth)
    (other : behavior.destination.register? instruction ≠ some .SW) :
    KeepsStatus context.registers effect.registers behavior.setsCode := by
  have apart {target : Register}
      (isTarget : behavior.destination.register? instruction = some target) : .SW ≠ target :=
    fun same => other (same ▸ isTarget)
  have notCounter : Register.SW ≠ .PC := nofun
  cases does with
  | load | loadByte => exact .of_eq (Registers.get_set_of_ne _ _ (apart rfl))
  | store | storeByte | pass => exact .of_eq rfl
  | arithmetic => exact .setResult inWidth _ _ (apart rfl)
  | compare code | registerCompare code => exact .setCode inWidth rfl code
  | countIndex limit | registerCountIndex limit => exact .countIndex inWidth limit
  | jump | returnToCaller => exact .of_eq (Registers.get_setCounter_of_ne _ _ notCounter)
  | call =>
    exact .of_eq ((Registers.get_setCounter_of_ne _ _ notCounter).trans
      (Registers.get_set_of_ne _ _ (apart rfl)))
  | registerArithmetic pair => exact .setResult inWidth _ _ (apart (registerPair_cases pair).2)
  | clear pair => exact .of_eq (Registers.get_set_of_ne _ _ (apart (registerPair_cases pair).1))
  | move pair => exact .of_eq (Registers.get_set_of_ne _ _ (apart (registerPair_cases pair).2))
  | shift value isShift halves named =>
    have isFirst := first_register? halves named
    refine .of_eq (Registers.get_set_of_ne _ _ (apart ?_))
    rcases isShift with rfl | rfl <;> exact isFirst

/-- **An effect stores as many bytes as its behavior says**, inside the memory and at the address
that the instruction refers to. -/
theorem Does.stores (does : Does instruction context behavior effect) :
    (behavior.storedBytes = 0 ∧ effect.store = none) ∨
      ∃ address bytes, effect.store = some (address, bytes) ∧
        instruction.storeAddress context = .ok address ∧ bytes.length = behavior.storedBytes ∧
        0 < behavior.storedBytes ∧ address + behavior.storedBytes ≤ context.memory.size := by
  cases does with
  | @store register address bytes located length inside =>
    have count : (Behavior.store register).storedBytes = bytes.length := by
      rw [Behavior.storedBytes, ← length, Nat.mul_div_cancel_left _ (by decide)]
    have positive : 0 < bytes.length := by
      have : 0 < register.width.bits := by cases register <;> decide
      omega
    rw [count]
    exact .inr ⟨address, bytes, rfl, located, rfl, positive, inside⟩
  | @storeByte address byte located inside =>
    exact .inr ⟨address, [byte], rfl, located, rfl, Nat.one_pos, inside⟩
  | shift value isShift =>
    refine .inl ⟨?_, rfl⟩
    rcases isShift with rfl | rfl <;> rfl
  | _ => exact .inl ⟨rfl, rfl⟩

end Instruction

/-! ### What a step leaves alone -/

namespace Machine

variable {machine later : Machine} {step : Step}

/-- **A step that succeeds has carried out an effect of its instruction.** -/
theorem step_does (stepped : machine.step = (later, .ok step)) :
    Instruction.fetch machine.memory machine.registers.counter = .ok step.instruction ∧
      ∃ operation ∈ Operation.table, ∃ effect, step.instruction.operation? = some operation ∧
        step.instruction.Does (machine.executing step.instruction) operation.behavior effect ∧
        later = machine.commit effect := by
  have same := step_cases machine
  rw [stepped] at same
  cases same with
  | @executed pc instruction effect _ _ next =>
    obtain ⟨rfl, fetched, operation, found, does⟩ := next_cases next
    exact ⟨fetched, operation, (Operation.mem_table_of_ofOpcode? found).1, effect, found, does, rfl⟩

/-- What an instruction keeps of SW, counted from the machine before it: moving the counter to the
next instruction is no change of SW. -/
theorem keepsStatus_of_does {instruction : Instruction} {behavior : Behavior} {effect : Effect}
    (inWidth : machine.registers.InWidth)
    (does : instruction.Does (machine.executing instruction) behavior effect)
    (other : behavior.destination.register? instruction ≠ some .SW) :
    Instruction.KeepsStatus machine.registers effect.registers behavior.setsCode := by
  have kept := does.keepsStatus (inWidth.setCounter _) other
  have same : (machine.executing instruction).registers.get .SW = machine.registers.get .SW :=
    Registers.get_setCounter_of_ne machine.registers _ nofun
  exact ⟨kept.upper.trans (congrArg (· / 4) same), fun none => (kept.whole none).trans same⟩

/-- **A step that succeeds changes nothing but the place of its result.** The memory stays as it is
unless the operation stores, and then only as many bytes as the operation stores may change, at the
address that the instruction refers to. Of the registers only the counter, SW and the destination of
the operation may change. SW, where it is not the destination, keeps all but the two bits of the
condition code, and those too unless the operation sets the condition code; so it keeps all of its
bits in AND and OR. The registers hold values of their widths, as they do after every history
(`Reached.inWidth`). -/
theorem step_footprint {machine later : Machine} {step : Step}
    (inWidth : machine.registers.InWidth) (stepped : machine.step = (later, .ok step)) :
    Instruction.fetch machine.memory machine.registers.counter = .ok step.instruction ∧
    ∃ operation ∈ Operation.table, step.instruction.operation? = some operation ∧
      (operation.mnemonic.storedBytes = 0 → later.memory = machine.memory) ∧
      (0 < operation.mnemonic.storedBytes → later.memory.size = machine.memory.size ∧
        ∃ address,
          step.instruction.storeAddress (machine.executing step.instruction) = .ok address ∧
          ∀ index, index < address ∨ address + operation.mnemonic.storedBytes ≤ index →
            later.memory.bytes[index]? = machine.memory.bytes[index]?) ∧
      (∀ register, register ≠ .PC → register ≠ .SW →
        operation.mnemonic.destination.register? step.instruction ≠ some register →
          later.registers.get register = machine.registers.get register) ∧
      (operation.mnemonic.destination.register? step.instruction ≠ some .SW →
        later.registers.sw / 4 = machine.registers.sw / 4 ∧
          (operation.mnemonic.setsCode = false → later.registers.sw = machine.registers.sw)) ∧
      (operation.mnemonic = .AND ∨ operation.mnemonic = .OR →
        later.registers.sw = machine.registers.sw) := by
  obtain ⟨fetched, operation, inTable, effect, found, does, rfl⟩ := step_does stepped
  obtain ⟨bytes, destination, code⟩ := Operation.footprint_of_mem operation inTable
  have stores := does.stores
  have keeps : operation.mnemonic.destination.register? step.instruction ≠ some .SW →
      Instruction.KeepsStatus machine.registers (machine.commit effect).registers
        operation.mnemonic.setsCode := by
    rw [← destination, ← code]
    exact keepsStatus_of_does inWidth does
  rw [bytes] at stores
  refine ⟨fetched, operation, inTable, found, fun nothing => ?_, fun something => ?_,
    fun register notCounter notCode other => ?_, fun other => ?_, fun logic => ?_⟩
  · rcases stores with ⟨_, unstored⟩ | ⟨_, _, _, _, _, positive, _⟩
    · rw [memory_commit, unstored, Option.elim_none]
    · omega
  · rcases stores with ⟨nothing, _⟩ | ⟨address, stored, isStore, located, length, _, inside⟩
    · omega
    · have written : (machine.commit effect).memory = machine.memory.put address stored := by
        rw [memory_commit, isStore, Option.elim_some]
      rw [written]
      refine ⟨Bytes.size_write _ _ _, address, located, fun index outside => ?_⟩
      rw [← length] at inside outside
      exact Bytes.getElem?_write_of_apart _ _ _ inside outside
  · rw [← destination] at other
    exact (does.get_eq notCounter notCode other).trans
      (Registers.get_setCounter_of_ne _ _ notCounter)
  · exact ⟨(keeps other).upper, (keeps other).whole⟩
  · rcases logic with isAnd | isOr
    · rw [isAnd] at keeps
      exact (keeps nofun).whole rfl
    · rw [isOr] at keeps
      exact (keeps nofun).whole rfl

/-- Storing the byte FE at the address 5, with some of SW set. -/
theorem step_footprint_storeByte :
    let machine : Machine :=
      { memory := (Memory.zeros 1024).put 0 [0x57, 0x00, 0x05],
        registers := { a := -2, x := 7, sw := 0x41 } }
    machine.registers.InWidth ∧ ∃ later step, machine.step = (later, .ok step) ∧
      later.memory.bytes[5]? = some 0xFE ∧
      (∀ index, index < 5 ∨ 6 ≤ index →
        later.memory.bytes[index]? = machine.memory.bytes[index]?) ∧
      later.registers.x = 7 ∧ later.registers.sw = 0x41 := by
  intro machine
  let instruction : Instruction := .relative 0x54 ⟨true, true, false, false, false, false⟩ 5
  have inWidth : machine.registers.InWidth := by
    intro register
    cases register <;> decide
  have result : machine.step.2 = .ok ⟨0, instruction, false⟩ := ok_of_toOption (by decide +kernel)
  have stepped : machine.step = (machine.step.1, .ok ⟨0, instruction, false⟩) := by rw [← result]
  have named : instruction.operation?.map Operation.mnemonic = some .STCH := by decide +kernel
  have located : instruction.storeAddress (machine.executing instruction) = .ok 5 :=
    ok_of_toOption (by decide +kernel)
  obtain ⟨_, operation, _, found, _, stores, registers, status, _⟩ := step_footprint inWidth stepped
  rw [found] at named
  have isStore : operation.mnemonic = .STCH := Option.some.inj named
  rw [isStore] at stores registers status
  obtain ⟨_, address, isAddress, kept⟩ := stores (by decide)
  cases located.symm.trans isAddress
  exact ⟨inWidth, _, _, stepped, by decide +kernel, kept, registers .X nofun nofun nofun,
    (status nofun).2 rfl⟩

end Machine

end Sicxe
