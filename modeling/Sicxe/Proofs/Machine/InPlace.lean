import Sicxe.Machine.Basic
import Sicxe.Proofs.Machine.Registers
import Sicxe.Proofs.Success

/-!
# Execution in place

An instruction can also be executed in place: the counter moves on before the operation begins, and
every register and every byte of memory changes at the moment when its value is known. What has
been changed by then stays changed when a later part fails. The behaviors are written in that way
here, in `performInPlace` and the definitions before it.

* `performInPlace_eq`: whatever a behavior checks, it checks before its first change, so execution
  in place comes to the effect that `Instruction.perform` works out; `performInPlace_error` is the
  failing half of it.
* `stepInPlace_eq_step`: a step in place puts the counter back when it fails, and is then the step
  of the machine.
* `step_error`: **a step that fails changes nothing but the fault.**
-/

namespace Sicxe

namespace Machine

open Instruction (Context)

/-- A computation that changes a machine as it goes. What it has changed before it fails stays
changed. -/
abbrev Changing : Type → Type :=
  ExceptT MachineError (StateM Machine)

namespace Changing

variable {α β : Type}

/-- Reads from the machine. -/
def inspect (reading : Machine → Except MachineError α) : Changing α :=
  fun machine => (reading machine, machine)

/-- Changes the registers. -/
def modify (change : Registers → Registers) : Changing Unit :=
  fun machine => (.ok (), { machine with registers := change machine.registers })

/-- Puts a value into a register. -/
def put (register : Register) (value : Int) : Changing Unit :=
  modify fun registers => registers.set register value

/-- Puts a condition code into SW. -/
def putCode (code : ConditionCode) : Changing Unit :=
  modify fun registers => registers.setCode code

/-- Puts an address into the counter. -/
def putCounter (address : Nat) : Changing Unit :=
  modify fun registers => registers.setCounter address

/-- Writes bytes to memory. -/
def write (address : Nat) (bytes : List UInt8) : Changing Unit :=
  fun machine =>
    match machine.memory.write address bytes with
    | .ok memory => (.ok (), { machine with memory })
    | .error error => (.error error, machine)

theorem bind_apply (first : Changing α) (rest : α → Changing β) (machine : Machine) :
    (first >>= rest) machine =
      match first machine with
      | (.ok value, changed) => rest value changed
      | (.error error, changed) => (.error error, changed) := by
  show ((StateT.bind first (ExceptT.bindCont rest) : StateM Machine _) machine) = _
  rcases outcome : first machine with ⟨_ | _, changed⟩ <;>
    simp only [StateT.bind, outcome, ExceptT.bindCont] <;> rfl

end Changing

open Changing

/-! ### The behaviors in place -/

section Behaviors

variable (instruction : Instruction) (pc next : Nat)

/-- What an instruction sees of a machine in the middle of its execution. -/
def context (machine : Machine) : Context :=
  ⟨machine.memory, machine.registers, pc, next⟩

/-- The word that the operand is. -/
def operandWord (machine : Machine) : Except MachineError Int := do
  let place ← instruction.operand (machine.context pc next)
  place.readWord machine.memory

/-- The value of a register, read as a value of its own width. -/
def registerValue (register : Register) (machine : Machine) : Except MachineError Int :=
  match register.width with
  | .word => machine.registers.getWord register
  | .long => machine.registers.getLong register

/-- Puts the result of an operation into a register, and then its comparison with zero into SW. -/
def arithmeticInPlace (operation : Arithmetic) (register : Register) (left right : Int) :
    Changing Bool :=
  match operation.apply left right with
  | some result => do
    put register result
    if operation.setsCode then putCode (.compare result 0)
    return false
  | none => throw (.divisionByZero pc)

/-- Counts X up, and then puts its comparison with a limit into SW. -/
def countIndexInPlace (limit : Int) : Changing Bool := do
  let index := Word.signed ((← inspect (registerValue .X)) + 1)
  put .X index
  putCode (.compare index limit)
  return false

/-- Loads a register. -/
def loadInPlace (register : Register) : Changing Bool := do
  let place ← inspect fun machine => instruction.operand (machine.context pc next)
  let value ← inspect fun machine =>
    match register.width with
    | .word => place.readWord machine.memory
    | .long => place.readLong machine.memory
  put register value
  return false

/-- Stores a register. -/
def storeInPlace (register : Register) : Changing Bool := do
  let address ← inspect fun machine => instruction.storeAddress (machine.context pc next)
  let value ← inspect (registerValue register)
  match register.width with
  | .word => write address (Memory.wordBytes value)
  | .long => write address (Memory.longBytes value)
  return false

/-- Moves the value of one register to another; the width of the other one is looked at last. -/
def moveInPlace : Changing Bool := do
  let (source, target) ← inspect fun machine => instruction.registerPair (machine.context pc next)
  let value ← inspect (registerValue source)
  if target.width = source.width then
    put target value
    return false
  else
    throw (.registerWidth target source.width)

/-- Shifts a register. -/
def shiftInPlace (shift : Int → Nat → Int) : Changing Bool := do
  let (number, places) ← inspect fun machine => instruction.halfBytes (machine.context pc next)
  let register ← inspect fun _ => Registers.byNumber number
  let value ← inspect fun machine => machine.registers.getWord register
  put register (shift value (places + 1))
  return false

/-- Jumps when the condition holds. -/
def jumpInPlace (condition : JumpCondition) : Changing Bool := do
  let place ← inspect fun machine => instruction.operand (machine.context pc next)
  let code ← inspect fun machine => .ok machine.registers.code
  if Instruction.taken condition code then
    putCounter place.target
    return place.target == pc
  else
    return false

/-- Executes an instruction whose operation behaves in a certain way, one change after the other;
the result tells whether the machine halts. -/
def performInPlace (operation : Operation) : Changing Bool :=
  match operation.behavior with
  | .load register => loadInPlace instruction pc next register
  | .loadByte => do
    let place ← inspect fun machine => instruction.operand (machine.context pc next)
    let byte ← inspect fun machine => place.readByte machine.memory
    let value ← inspect (registerValue .A)
    put .A (value - value % 256 + byte)
    return false
  | .store register => storeInPlace instruction pc next register
  | .storeByte => do
    let address ← inspect fun machine => instruction.storeAddress (machine.context pc next)
    let value ← inspect (registerValue .A)
    write address [UInt8.ofNat (value % 256).toNat]
    return false
  | .arithmetic operation => do
    let right ← inspect (operandWord instruction pc next)
    let left ← inspect (registerValue .A)
    arithmeticInPlace pc operation .A left right
  | .compare => do
    let right ← inspect (operandWord instruction pc next)
    let left ← inspect (registerValue .A)
    putCode (.compare left right)
    return false
  | .countIndex => do
    let limit ← inspect (operandWord instruction pc next)
    countIndexInPlace limit
  | .jump condition => jumpInPlace instruction pc next condition
  | .call => do
    let place ← inspect fun machine => instruction.operand (machine.context pc next)
    put .L next
    putCounter place.target
    return false
  | .returnToCaller => do
    let target := Word.unsigned (← inspect (registerValue .L))
    putCounter target
    return target == haltAddress
  | .registerArithmetic operation => do
    let (first, second) ← inspect fun machine => instruction.registerPair (machine.context pc next)
    let right ← inspect fun machine => machine.registers.getWord first
    let left ← inspect fun machine => machine.registers.getWord second
    arithmeticInPlace pc operation second left right
  | .registerCompare => do
    let (first, second) ← inspect fun machine => instruction.registerPair (machine.context pc next)
    let left ← inspect fun machine => machine.registers.getWord first
    let right ← inspect fun machine => machine.registers.getWord second
    putCode (.compare left right)
    return false
  | .clear => do
    let (register, _) ← inspect fun machine => instruction.registerPair (machine.context pc next)
    put register 0
    return false
  | .move => moveInPlace instruction pc next
  | .shiftLeft => shiftInPlace instruction pc next Word.rotateLeft
  | .shiftRight => shiftInPlace instruction pc next Word.shiftRight
  | .registerCountIndex => do
    let (register, _) ← inspect fun machine => instruction.registerPair (machine.context pc next)
    let limit ← inspect fun machine => machine.registers.getWord register
    countIndexInPlace limit
  | .unsupported => throw (.unsupported operation.mnemonic pc)

end Behaviors

/-! ### The behaviors in place come to their effects -/

/-- A machine for which an effect has been worked out, with the result of its execution. -/
def settle (machine : Machine) :
    Except MachineError Effect → Except MachineError Bool × Machine
  | .ok effect =>
    (.ok effect.halts, { machine with
      memory := effect.store.elim machine.memory fun (address, bytes) =>
        machine.memory.put address bytes
      registers := effect.registers })
  | .error error => (.error error, machine)

section Settling

variable {α : Type} {instruction : Instruction} {pc next : Nat} {machine : Machine}

/-- **A reading that fails has changed nothing**, and one that succeeds leaves the rest to do. -/
theorem inspect_bind {reading : Machine → Except MachineError α} {rest : α → Changing Bool}
    {effect : α → Except MachineError Effect}
    (settles : ∀ value, reading machine = .ok value →
      rest value machine = settle machine (effect value)) :
    (inspect reading >>= rest) machine = settle machine (reading machine >>= effect) := by
  rw [bind_apply, inspect]
  cases outcome : reading machine with
  | ok value => exact settles value outcome
  | error error => rfl

/-- A register can always be read at its own width. -/
theorem registerValue_bind (register : Register) {rest : Int → Changing Bool} :
    (inspect (registerValue register) >>= rest) machine =
      rest (machine.registers.get register) machine := by
  have value : registerValue register machine = .ok (machine.registers.get register) := by
    cases register <;> rfl
  rw [bind_apply, inspect, value]

/-- The operand of an instruction as a word, in two readings or in one. -/
theorem operandWord_bind {rest : Int → Changing Bool} {effect : Int → Except MachineError Effect}
    (settles : ∀ value, rest value machine = settle machine (effect value)) :
    (inspect (operandWord instruction pc next) >>= rest) machine =
      settle machine (do
        let place ← instruction.operand (machine.context pc next)
        let value ← place.readWord machine.memory
        effect value) := by
  rw [← bind_assoc]
  exact inspect_bind fun value _ => settles value

/-- Bytes are written where a store checks that they fit. -/
theorem write_bind (address : Nat) (bytes : List UInt8) :
    (write address bytes >>= fun _ => pure false) machine =
      settle machine (Instruction.store (machine.context pc next) address bytes) := by
  have checked : machine.memory.write address bytes =
      (machine.memory.check address bytes.length).map
        fun _ => machine.memory.put address bytes := by
    unfold Memory.write Memory.check
    split <;> rfl
  rw [bind_apply, write, checked, Instruction.store, context]
  cases machine.memory.check address bytes.length <;> rfl

/-- The result of an operation is known before a register changes. -/
theorem arithmeticInPlace_eq (operation : Arithmetic) (register : Register) (left right : Int) :
    arithmeticInPlace pc operation register left right machine =
      settle machine (match operation.apply left right with
        | some result => .ok
          { registers := Instruction.setResult machine.registers register operation result }
        | none => .error (.divisionByZero pc)) := by
  unfold arithmeticInPlace Instruction.setResult
  cases operation.apply left right with
  | some result => cases operation.setsCode <;> rfl
  | none => rfl

theorem countIndexInPlace_eq (limit : Int) :
    countIndexInPlace limit machine =
      settle machine (.ok { registers := Instruction.countIndex machine.registers limit }) :=
  rfl

theorem loadInPlace_eq (register : Register) :
    loadInPlace instruction pc next register machine =
      settle machine (instruction.executeLoad (machine.context pc next) register) := by
  refine inspect_bind fun place _ => ?_
  cases register.width with
  | word => exact inspect_bind fun value _ => rfl
  | long => exact inspect_bind fun value _ => rfl

theorem storeInPlace_eq (register : Register) :
    storeInPlace instruction pc next register machine =
      settle machine (instruction.executeStore (machine.context pc next) register) := by
  refine inspect_bind fun address _ => ?_
  rw [registerValue_bind]
  cases register.width with
  | word => exact write_bind _ _
  | long => exact write_bind _ _

theorem moveInPlace_eq :
    moveInPlace instruction pc next machine =
      settle machine (instruction.executeMove (machine.context pc next)) := by
  refine inspect_bind fun (source, target) _ => ?_
  simp only [registerValue_bind]
  by_cases widths : target.width = source.width
  · simp only [if_pos widths]
    rfl
  · simp only [if_neg widths]
    rfl

theorem shiftInPlace_eq (shift : Int → Nat → Int) :
    shiftInPlace instruction pc next shift machine =
      settle machine (instruction.executeShift (machine.context pc next) shift) := by
  refine inspect_bind fun (number, places) _ => ?_
  refine inspect_bind fun register _ => ?_
  refine inspect_bind fun value _ => ?_
  rfl

theorem jumpInPlace_eq (condition : JumpCondition) :
    jumpInPlace instruction pc next condition machine =
      settle machine (instruction.executeJump (machine.context pc next) condition) := by
  refine inspect_bind fun place _ => ?_
  rw [bind_apply, inspect]
  by_cases taken : Instruction.taken condition machine.registers.code = true
  · simp only [if_pos taken]
    show _ = settle machine (if Instruction.taken condition machine.registers.code = true then _
      else _)
    rw [if_pos taken]
    rfl
  · simp only [if_neg taken]
    show _ = settle machine (if Instruction.taken condition machine.registers.code = true then _
      else _)
    rw [if_neg taken]
    rfl

/-- **Execution in place comes to the effect of the instruction**: when it fails, nothing has been
changed, and when it succeeds, the changes are those of the effect. -/
theorem performInPlace_eq (operation : Operation) :
    performInPlace instruction pc next operation machine =
      settle machine (instruction.perform operation (machine.context pc next)) := by
  unfold performInPlace Instruction.perform
  cases operation.behavior with
  | load register => exact loadInPlace_eq register
  | loadByte =>
    refine inspect_bind fun place _ => ?_
    refine inspect_bind fun byte _ => ?_
    rw [registerValue_bind]
    rfl
  | store register => exact storeInPlace_eq register
  | storeByte =>
    refine inspect_bind fun address _ => ?_
    rw [registerValue_bind]
    exact write_bind _ _
  | arithmetic operation =>
    refine operandWord_bind fun right => ?_
    rw [registerValue_bind]
    exact arithmeticInPlace_eq ..
  | compare =>
    refine operandWord_bind fun right => ?_
    rw [registerValue_bind]
    rfl
  | countIndex => exact operandWord_bind fun limit => countIndexInPlace_eq limit
  | jump condition => exact jumpInPlace_eq condition
  | call => exact inspect_bind fun place _ => rfl
  | returnToCaller => rfl
  | registerArithmetic operation =>
    refine inspect_bind fun (first, second) _ => ?_
    refine inspect_bind fun right _ => ?_
    refine inspect_bind fun left _ => ?_
    exact arithmeticInPlace_eq ..
  | registerCompare =>
    refine inspect_bind fun (first, second) _ => ?_
    refine inspect_bind fun left _ => ?_
    refine inspect_bind fun right _ => ?_
    rfl
  | clear => exact inspect_bind fun (register, _) _ => rfl
  | move => exact moveInPlace_eq
  | shiftLeft => exact shiftInPlace_eq _
  | shiftRight => exact shiftInPlace_eq _
  | registerCountIndex =>
    refine inspect_bind fun (register, _) _ => ?_
    refine inspect_bind fun limit _ => ?_
    exact countIndexInPlace_eq limit
  | unsupported => rfl

/-- **An instruction that fails leaves the machine as it is.** -/
theorem performInPlace_error {operation : Operation} {error : MachineError} {changed : Machine}
    (failed : performInPlace instruction pc next operation machine = (.error error, changed)) :
    changed = machine := by
  rw [performInPlace_eq] at failed
  cases outcome : instruction.perform operation (machine.context pc next) with
  | ok effect =>
    rw [outcome] at failed
    cases congrArg Prod.fst failed
  | error error =>
    rw [outcome] at failed
    exact (congrArg Prod.snd failed).symm

end Settling

/-! ### A step in place -/

/-- Executes an instruction at the address `pc`. The counter is on the next instruction before the
operation begins. -/
def operateInPlace (instruction : Instruction) (pc next : Nat) (operation : Operation) :
    Changing Step := do
  putCounter next
  let halted ← performInPlace instruction pc next operation
  return ⟨pc, instruction, halted⟩

/-- Executes the instruction at the address `pc`. -/
def executeInPlace (pc : Nat) : Changing Step := do
  let instruction ← inspect fun machine => Instruction.fetch machine.memory pc
  match instruction.operation? with
  | none => throw (.invalidOpcode instruction.opcode pc)
  | some operation =>
    operateInPlace instruction pc (Word.unsigned (pc + instruction.length : Nat)) operation

/-- Executes one instruction. After an error the counter is put back on the instruction that
failed. -/
def stepInPlace (machine : Machine) : Machine × Except MachineError Step :=
  match machine.fault with
  | some fault => (machine, .error fault)
  | none =>
    if machine.halted then (machine, .error .halted)
    else
      let pc := machine.registers.counter
      match executeInPlace pc machine with
      | (.ok step, changed) =>
        ({ changed with steps := changed.steps + 1, halted := step.halted }, .ok step)
      | (.error error, changed) =>
        ({ changed with
          registers := changed.registers.setCounter pc
          fault := some error }, .error error)

variable {machine : Machine}

/-- The machine with other registers. -/
def withRegisters (machine : Machine) (registers : Registers) : Machine :=
  { machine with registers }

theorem putCounter_apply (next : Nat) :
    putCounter next machine = (.ok (), machine.withRegisters (machine.registers.setCounter next)) :=
  rfl

section Operating

variable {instruction : Instruction} {pc next : Nat} {operation : Operation}
  {registers : Registers}

theorem performInPlace_withRegisters_ok {effect : Effect}
    (performed : instruction.perform operation ⟨machine.memory, registers, pc, next⟩ = .ok effect) :
    performInPlace instruction pc next operation (machine.withRegisters registers) =
      settle machine (.ok effect) := by
  have run := congrArg (settle (machine.withRegisters registers)) performed
  exact (performInPlace_eq operation).trans run

theorem performInPlace_withRegisters_error {error : MachineError}
    (performed : instruction.perform operation ⟨machine.memory, registers, pc, next⟩ =
      .error error) :
    performInPlace instruction pc next operation (machine.withRegisters registers) =
      (.error error, machine.withRegisters registers) := by
  have run := congrArg (settle (machine.withRegisters registers)) performed
  exact (performInPlace_eq operation).trans run

theorem operateInPlace_ok {effect : Effect}
    (performed : instruction.perform operation
      ⟨machine.memory, machine.registers.setCounter next, pc, next⟩ = .ok effect) :
    operateInPlace instruction pc next operation machine =
      (.ok ⟨pc, instruction, effect.halts⟩, (settle machine (.ok effect)).2) := by
  rw [operateInPlace, bind_apply, putCounter_apply]
  simp only [bind_apply, performInPlace_withRegisters_ok performed]
  rfl

/-- An operation that fails leaves the counter on the next instruction. -/
theorem operateInPlace_error {error : MachineError}
    (performed : instruction.perform operation
      ⟨machine.memory, machine.registers.setCounter next, pc, next⟩ = .error error) :
    operateInPlace instruction pc next operation machine =
      (.error error, machine.withRegisters (machine.registers.setCounter next)) := by
  rw [operateInPlace, bind_apply, putCounter_apply]
  simp only [bind_apply, performInPlace_withRegisters_error performed]

end Operating

theorem next_of_fetch {instruction : Instruction}
    (fetched : Instruction.fetch machine.memory machine.registers.counter = .ok instruction) :
    machine.next = (instruction.execute machine.memory machine.registers
      machine.registers.counter).map fun effect =>
        (machine.registers.counter, instruction, effect) := by
  rw [Machine.next, fetched]
  rfl

/-- At most the counter of the machine has changed. -/
def CounterMoved (machine changed : Machine) : Prop :=
  ∃ registers, changed = machine.withRegisters registers ∧
    ∀ address, registers.setCounter address = machine.registers.setCounter address

/-- The outcome of execution in place, by what the machine is about to do. -/
theorem executeInPlace_cases (machine : Machine) :
    (∃ pc instruction effect, machine.next = .ok (pc, instruction, effect) ∧
      executeInPlace machine.registers.counter machine =
        (.ok ⟨pc, instruction, effect.halts⟩, (settle machine (.ok effect)).2)) ∨
    ∃ error changed, machine.next = .error error ∧
      executeInPlace machine.registers.counter machine = (.error error, changed) ∧
      machine.CounterMoved changed := by
  rw [executeInPlace, bind_apply, inspect]
  cases fetched : Instruction.fetch machine.memory machine.registers.counter with
  | error error =>
    refine .inr ⟨error, machine, ?_, rfl, _, rfl, fun _ => rfl⟩
    rw [Machine.next, fetched]
    rfl
  | ok instruction =>
    rw [next_of_fetch fetched, Instruction.execute]
    cases found : instruction.operation? with
    | none =>
      simp only [found]
      exact .inr ⟨_, machine, rfl, rfl, _, rfl, fun _ => rfl⟩
    | some operation =>
      simp only [found]
      generalize Word.unsigned (machine.registers.counter + instruction.length : Nat) = next
      cases performed : instruction.perform operation
          ⟨machine.memory, machine.registers.setCounter next, machine.registers.counter, next⟩ with
      | ok effect => exact .inl ⟨_, instruction, effect, rfl, operateInPlace_ok performed⟩
      | error error =>
        exact .inr ⟨error, _, rfl, operateInPlace_error performed, _, rfl,
          Registers.setCounter_setCounter _ next⟩

/-- A committed effect is the machine after the execution in place, with the step counted. -/
theorem commit_eq_settle (effect : Effect) :
    machine.commit effect =
      { (settle machine (.ok effect)).2 with
        steps := machine.steps + 1
        halted := effect.halts } := by
  obtain ⟨registers, store, halts⟩ := effect
  cases store <;> rfl

/-- **After an error the machine is put back.** -/
theorem restored_eq {changed : Machine} {error : MachineError}
    (inWidth : machine.registers.InWidth) (moved : machine.CounterMoved changed) :
    { changed with
      registers := changed.registers.setCounter machine.registers.counter
      fault := some error } = { machine with fault := some error } := by
  obtain ⟨registers, rfl, same⟩ := moved
  have back : registers.setCounter machine.registers.counter = machine.registers := by
    rw [same, Registers.setCounter_counter inWidth]
  simp only [withRegisters, back]

/-- **A step in place is the step of the machine**, when every register holds a value of its
width. -/
theorem stepInPlace_eq_step (inWidth : machine.registers.InWidth) :
    machine.stepInPlace = machine.step := by
  unfold stepInPlace step
  cases machine.fault with
  | some fault => rfl
  | none =>
    by_cases running : machine.halted = true
    · simp only [if_pos running]
    · simp only [if_neg running]
      obtain ⟨pc, instruction, effect, next, run⟩ | ⟨error, changed, next, run, moved⟩ :=
        executeInPlace_cases machine
      · simp only [next, run, commit_eq_settle]
        rfl
      · simp only [next, run, restored_eq inWidth moved]

section Failing

variable {error : MachineError} (fresh : machine.fault = none) (running : machine.halted = false)

include fresh running

/-- A machine that can run does what the instruction comes to. -/
theorem step_eq :
    machine.step =
      match machine.next with
      | .ok (pc, instruction, effect) =>
        (machine.commit effect, .ok ⟨pc, instruction, effect.halts⟩)
      | .error error => ({ machine with fault := some error }, .error error) := by
  have executing : ¬machine.halted = true := by
    rw [running]
    exact Bool.false_ne_true
  rw [step, fresh]
  exact if_neg executing

theorem step_of_next (failed : machine.next = .error error) :
    machine.step = ({ machine with fault := some error }, .error error) := by
  rw [step_eq fresh running, failed]

/-- A step that fails has failed for the reason of the instruction. -/
theorem next_of_step {after : Machine} (failed : machine.step = (after, .error error)) :
    machine.next = .error error := by
  rw [step_eq fresh running] at failed
  cases next : machine.next with
  | ok done =>
    rw [next] at failed
    cases congrArg Prod.snd failed
  | error reason =>
    rw [next] at failed
    cases failed
    rfl

end Failing

/-- **A step that fails has no effect but the fault**, also when the instruction is executed in
place: whatever the instruction and the error, memory, every register, the number of steps and the
halt stay as they were. -/
theorem step_error (inWidth : machine.registers.InWidth) (fresh : machine.fault = none)
    (running : machine.halted = false) :
    machine.stepInPlace = machine.step ∧
      ∀ after error, machine.step = (after, .error error) →
        after.memory = machine.memory ∧
        (∀ register, after.registers.get register = machine.registers.get register) ∧
        after.steps = machine.steps ∧
        after.halted = machine.halted ∧
        after.fault = some error := by
  refine ⟨stepInPlace_eq_step inWidth, fun after error failed => ?_⟩
  have next := next_of_step fresh running failed
  rw [step_of_next fresh running next] at failed
  cases failed
  exact ⟨rfl, fun _ => rfl, rfl, rfl, rfl⟩

/-- A machine about to divide A by the constant zero. -/
def dividingByZero : Machine where
  memory := (Memory.zeros Memory.minSize).put 0 [0x25, 0x00, 0x00]
  registers := ({} : Registers).set .A 7

/-- The division fails and leaves the machine as it is. -/
theorem step_error_dividingByZero :
    dividingByZero.registers.InWidth ∧ dividingByZero.fault = none ∧
      dividingByZero.halted = false ∧
      ∃ after, dividingByZero.step = (after, .error (.divisionByZero 0)) ∧
        after.memory = dividingByZero.memory ∧
        (∀ register, after.registers.get register = dividingByZero.registers.get register) ∧
        after.fault = some (.divisionByZero 0) := by
  have inWidth : dividingByZero.registers.InWidth := by
    intro register
    cases register <;> decide
  have failed := step_of_next rfl rfl
    (error_of_failure? (show failure? dividingByZero.next = some (.divisionByZero 0) by
      decide +kernel))
  obtain ⟨_, unchanged⟩ := step_error inWidth rfl rfl
  obtain ⟨memory, registers, _, _, fault⟩ := unchanged _ _ failed
  exact ⟨inWidth, rfl, rfl, _, failed, memory, registers, fault⟩

end Machine

end Sicxe
