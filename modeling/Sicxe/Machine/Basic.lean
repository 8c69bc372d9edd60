import Sicxe.Machine.Execution

/-!
# The machine

A machine is its memory, its registers and a status. `Machine.step` executes one instruction and
commits its effect; an error changes nothing but the status, and the machine then stays faulted
until the fault is cleared. `Machine.runWith` repeats the step, and an observer sees every one.
-/

namespace Sicxe

/-- A machine. -/
structure Machine where
  memory : Memory
  registers : Registers := {}
  /-- The error of the last step, if it failed. -/
  fault : Option MachineError := none
  halted : Bool := false
  /-- The number of instructions executed. It has no bound, and a counter of 64 bits agrees with it
  below 2 ^ 64 instructions. -/
  steps : Nat := 0
  deriving DecidableEq, Repr

/-- An executed instruction. -/
structure Step where
  pc : Nat
  instruction : Instruction
  halted : Bool
  deriving DecidableEq, Repr

/-- Why a run ended. -/
inductive Outcome where
  | halted
  | stopped
  | stepLimit
  deriving DecidableEq, Repr

namespace Machine

/-- A machine with a memory of some size. -/
def create (size : Nat) : Except MachineError Machine :=
  (Memory.create size).map fun memory => { memory }

/-- A machine with cleared registers and status; the memory is kept. -/
def reset (machine : Machine) : Machine :=
  { memory := machine.memory }

/-- A machine that may run again from the instruction that failed. -/
def clearFault (machine : Machine) : Machine :=
  { machine with fault := none }

/-- The machine after an instruction with some effect. The machine is taken apart first, so that
its memory has one owner when the bytes are written. -/
def commit : Machine → Effect → Machine
  | { memory, fault, steps, .. }, { registers, store, halts } =>
    { memory := match store with
        | some (address, bytes) => memory.put address bytes
        | none => memory
      registers, fault, halted := halts, steps := steps + 1 }

theorem registers_commit (machine : Machine) (effect : Effect) :
    (machine.commit effect).registers = effect.registers := rfl

theorem halted_commit (machine : Machine) (effect : Effect) :
    (machine.commit effect).halted = effect.halts := rfl

theorem steps_commit (machine : Machine) (effect : Effect) :
    (machine.commit effect).steps = machine.steps + 1 := rfl

theorem fault_commit (machine : Machine) (effect : Effect) :
    (machine.commit effect).fault = machine.fault := rfl

/-- **An instruction changes memory only where it stores.** -/
theorem memory_commit (machine : Machine) (effect : Effect) :
    (machine.commit effect).memory =
      effect.store.elim machine.memory
        fun (address, bytes) => machine.memory.put address bytes := by
  obtain ⟨_, store, _⟩ := effect
  cases store <;> rfl

/-- The instruction that the machine is about to execute, with its address and its effect. -/
def next (machine : Machine) : Except MachineError (Nat × Instruction × Effect) := do
  let pc := machine.registers.counter
  let instruction ← Instruction.fetch machine.memory pc
  let effect ← instruction.execute machine.memory machine.registers pc
  return (pc, instruction, effect)

/-- Executes one instruction. A machine that has a fault or has halted stays as it is. -/
def step (machine : Machine) : Machine × Except MachineError Step :=
  match machine.fault with
  | some fault => (machine, .error fault)
  | none =>
    if machine.halted then (machine, .error .halted)
    else
      match machine.next with
      | .ok (pc, instruction, effect) =>
        (machine.commit effect, .ok ⟨pc, instruction, effect.halts⟩)
      | .error error => ({ machine with fault := some error }, .error error)

/-- Executes up to `count` instructions one by one, ending after the first error, with the result
of every step. -/
def stepMany (machine : Machine) : Nat → Machine × List (Except MachineError Step)
  | 0 => (machine, [])
  | count + 1 =>
    match machine.step with
    | (machine, .error error) => (machine, [.error error])
    | (machine, .ok step) =>
      let (machine, results) := machine.stepMany count
      (machine, .ok step :: results)

/-- What a run leads to: the machine, what the observer has gathered, and how the run ended. -/
structure Finished (σ : Type) where
  machine : Machine
  observed : σ
  result : Except MachineError Outcome

/-- Runs a machine for at most `limit` instructions. The run ends early when the machine halts,
when `stop` holds of what was observed, or with an error. -/
def runWith {σ : Type} (stop : σ → Bool) (observe : Machine → Step → σ → σ) (limit : Nat)
    (machine : Machine) (observed : σ) : Finished σ :=
  if machine.halted then ⟨machine, observed, .ok .halted⟩
  else if stop observed then ⟨machine, observed, .ok .stopped⟩
  else
    match limit with
    | 0 => ⟨machine, observed, .ok .stepLimit⟩
    | limit + 1 =>
      match machine.step with
      | (machine, .error error) => ⟨machine, observed, .error error⟩
      | (machine, .ok step) =>
        runWith stop observe limit machine (observe machine step observed)

/-- The limit of a run that has none: the range of a step counter of 64 bits. -/
def unlimited : Nat := 0x10000000000000000

/-- Runs a machine for at most `limit` instructions. -/
def run (machine : Machine) (limit : Nat) : Finished Unit :=
  runWith (fun _ => false) (fun _ _ _ => ()) limit machine ()

end Machine

end Sicxe
