import Sicxe.Machine.Loading
import Sicxe.Proofs.Machine.Effect

/-!
# The history of a machine

`Machine.Action` is what can be done to a machine from outside, and `Machine.Reached` says that
actions lead to a machine from a new one. A run is nothing but steps, so that whatever every step
keeps is kept by a run (`runWith_induction`) and, together with the other actions, by a history.

* `Machine.step_cases`: the four things that a step can come to.
* `Machine.Reached.inWidth`: after every history all registers hold values of their widths.
* `Machine.reached_registers`: the ranges of these values, and that reading them loses nothing.
-/

namespace Sicxe

namespace Machine

variable {machine after : Machine}

/-! ### Steps and runs -/

/-- What a step can come to. -/
inductive StepCase (machine : Machine) : Machine × Except MachineError Step → Prop
  | faulted {error : MachineError} (fault : machine.fault = some error) :
      StepCase machine (machine, .error error)
  | stopped (fresh : machine.fault = none) (halted : machine.halted = true) :
      StepCase machine (machine, .error .halted)
  | executed {pc : Nat} {instruction : Instruction} {effect : Effect}
      (fresh : machine.fault = none) (running : machine.halted = false)
      (next : machine.next = .ok (pc, instruction, effect)) :
      StepCase machine (machine.commit effect, .ok ⟨pc, instruction, effect.halts⟩)
  | failed {error : MachineError} (fresh : machine.fault = none)
      (running : machine.halted = false) (next : machine.next = .error error) :
      StepCase machine ({ machine with fault := some error }, .error error)

/-- **A step repeats a fault, finds the machine halted, executes an instruction or fails.** -/
theorem step_cases (machine : Machine) : StepCase machine machine.step := by
  unfold step
  split
  · rename_i fault
    exact .faulted fault
  · rename_i fresh
    by_cases halted : machine.halted = true
    · rw [if_pos halted]
      exact .stopped fresh halted
    · rw [if_neg halted]
      have running : machine.halted = false := Bool.eq_false_iff.mpr halted
      split
      · rename_i next
        exact .executed fresh running next
      · rename_i next
        exact .failed fresh running next

section Runs

variable {σ : Type} {stop : σ → Bool} {observe : Machine → Step → σ → σ}

/-- **A run keeps what every step keeps.** -/
theorem runWith_induction (property : Machine → Prop)
    (steps : ∀ machine, property machine → property machine.step.1) (limit : Nat) (observed : σ)
    (holds : property machine) :
    property (machine.runWith stop observe limit observed).machine := by
  induction limit generalizing machine observed with
  | zero =>
    unfold runWith
    split
    · exact holds
    · split <;> exact holds
  | succ limit ih =>
    have kept := steps machine holds
    unfold runWith
    split
    · exact holds
    · split
      · exact holds
      · dsimp only
        split
        · rename_i failed
          rw [failed] at kept
          exact kept
        · rename_i executed
          rw [executed] at kept
          exact ih _ kept

end Runs

/-! ### Actions -/

/-- What can be done to a machine from outside. -/
inductive Action : Type 1 where
  | step
  /-- A run with an observer that may end it. -/
  | run {σ : Type} (stop : σ → Bool) (observe : Machine → Step → σ → σ) (limit : Nat)
      (observed : σ)
  | load (object : Object) (base : Option UInt32)
  | reset
  | clearFault
  | setRegister (register : Register) (value : Int)
  | setCounter (address : Nat)
  | setCode (code : ConditionCode)
  | clearRegisters
  /-- Any writing to the memory, told by what the memory is afterwards. -/
  | putMemory (memory : Memory)

namespace Action

/-- The machine after an action. A load that fails changes nothing. -/
def perform (machine : Machine) : Action → Machine
  | step => machine.step.1
  | run stop observe limit observed => (machine.runWith stop observe limit observed).machine
  | load object base =>
    match machine.load object base with
    | .ok (loaded, _) => loaded
    | .error _ => machine
  | reset => machine.reset
  | clearFault => machine.clearFault
  | setRegister register value => { machine with registers := machine.registers.set register value }
  | setCounter address => { machine with registers := machine.registers.setCounter address }
  | setCode code => { machine with registers := machine.registers.setCode code }
  | clearRegisters => { machine with registers := {} }
  | putMemory memory => { machine with memory }

/-- Whether an action makes a fresh start: a reset does, and a load that succeeds. -/
def restarts (machine : Machine) : Action → Bool
  | reset => true
  | load object base => (machine.load object base).isOk
  | _ => false

/-- The number of instructions that an action executes. A run shows every one of them to its
observer, and so an observer beside that one can count them. -/
def executed (machine : Machine) : Action → Nat
  | step => if machine.step.2.isOk then 1 else 0
  | run stop observe limit observed =>
    (machine.runWith (fun seen => stop seen.1)
      (fun machine step seen => (observe machine step seen.1, seen.2 + 1))
      limit (observed, 0)).observed.2
  | _ => 0

/-- The number of instructions executed since the last fresh start, after one more action. -/
def count (machine : Machine) (executed : Nat) (action : Action) : Nat :=
  if action.restarts machine then 0 else executed + action.executed machine

end Action

/-- Some actions lead from a new machine to this one, which has executed as many instructions since
its last fresh start. -/
inductive Reached : Machine → Nat → Prop
  | create {size : Nat} {machine : Machine} (created : Machine.create size = .ok machine) :
      Reached machine 0
  | act {machine : Machine} {executed : Nat} (action : Action) (before : Reached machine executed) :
      Reached (action.perform machine) (action.count machine executed)

/-- A new machine has a memory of zeros, cleared registers and a cleared status. -/
theorem create_eq_ok_iff {size : Nat} :
    create size = .ok machine ↔ Memory.minSize ≤ size ∧ machine = { memory := .zeros size } := by
  unfold create Memory.create
  by_cases small : size < Memory.minSize
  · rw [if_pos small]
    constructor
    · intro created
      cases created
    · rintro ⟨least, _⟩
      exact absurd small (Nat.not_lt.mpr least)
  · rw [if_neg small]
    constructor
    · intro created
      exact ⟨Nat.not_lt.mp small, (Except.ok.inj created).symm⟩
    · rintro ⟨_, rfl⟩
      rfl

/-! ### Registers in the course of a history -/

theorem inWidth_step (inWidth : machine.registers.InWidth) :
    machine.step.1.registers.InWidth := by
  have same := step_cases machine
  generalize machine.step = result at same
  cases same with
  | faulted | stopped | failed => exact inWidth
  | executed fresh running next =>
    obtain ⟨_, _, _, _, does⟩ := next_cases next
    exact does.inWidth (inWidth.setCounter _)

theorem inWidth_load {object : Object} {base : Option UInt32} {report : LoadReport}
    (loaded : machine.load object base = .ok (after, report)) : after.registers.InWidth := by
  obtain ⟨_, _, loaded⟩ := bind_eq_ok_iff.mp loaded
  obtain ⟨_, _, same⟩ := bind_eq_ok_iff.mp loaded
  cases same
  exact (Registers.inWidth_empty.set .L _).setCounter _

theorem Action.inWidth (action : Action) (inWidth : machine.registers.InWidth) :
    (action.perform machine).registers.InWidth := by
  cases action with
  | step => exact inWidth_step inWidth
  | run stop observe limit observed =>
    exact runWith_induction (fun machine => machine.registers.InWidth)
      (fun _ inWidth => inWidth_step inWidth) limit observed inWidth
  | load object base =>
    unfold perform
    dsimp only
    split
    · rename_i loaded
      exact inWidth_load loaded
    · exact inWidth
  | reset | clearRegisters => exact Registers.inWidth_empty
  | clearFault | putMemory => exact inWidth
  | setRegister register value => exact inWidth.set register value
  | setCounter address => exact inWidth.setCounter address
  | setCode code => exact inWidth.setCode code

/-- **After every history the registers hold values of their widths.** -/
theorem Reached.inWidth {executed : Nat} (reached : Reached machine executed) :
    machine.registers.InWidth := by
  induction reached with
  | create created =>
    rw [(create_eq_ok_iff.mp created).2]
    exact Registers.inWidth_empty
  | act action _ ih => exact action.inWidth ih

/-- **After every history each register is in the range of its width**: F has 48 bits with a sign
and every other register 24. No word loses bits when it is read into 32 bits, the counter is below
2^24, and to put it where it is changes nothing. -/
theorem reached_registers {machine : Machine} {executed : Nat}
    (reached : Reached machine executed) :
    (∀ register, register ≠ .F → -0x800000 ≤ machine.registers.get register ∧
        machine.registers.get register ≤ 0x7FFFFF) ∧
      (-0x800000000000 ≤ machine.registers.f ∧ machine.registers.f ≤ 0x7FFFFFFFFFFF) ∧
      (∀ register, register ≠ .F →
        machine.registers.getWord register =
            .ok (signExtend 32 (machine.registers.get register)) ∧
          signExtend 32 (machine.registers.get register) = machine.registers.get register) ∧
      machine.registers.counter < 0x1000000 ∧
      machine.registers.setCounter machine.registers.counter = machine.registers := by
  have inWidth := reached.inWidth
  have isWord : ∀ register : Register, register ≠ .F → register.width = .word := by
    intro register other
    cases register <;> first | rfl | exact absurd rfl other
  refine ⟨fun register other => ?_, ?_, fun register other => inWidth.getWord (isWord _ other),
    Word.unsigned_lt _, Registers.setCounter_counter inWidth⟩
  · have bounds := inWidth.word_bounds (isWord register other)
    omega
  · have isLong : Register.F.width = .long := rfl
    have bounds := inWidth.long_bounds isLong
    have same : machine.registers.get .F = machine.registers.f := rfl
    omega

/-- A new machine, after 2^47 was put into F and one instruction of zeros was executed. -/
theorem reached_registers_wrapped :
    let machine := Action.step.perform
      ((Action.setRegister .F 0x800000000000).perform { memory := .zeros 1024 })
    Reached machine 1 ∧ machine.registers.f = -0x800000000000 ∧
      machine.registers.counter = 3 ∧ machine.registers.counter < 0x1000000 ∧
      machine.registers.setCounter machine.registers.counter = machine.registers := by
  intro machine
  have created : create 1024 = .ok { memory := .zeros 1024 } :=
    create_eq_ok_iff.mpr ⟨by decide, rfl⟩
  have counted : Action.step.count
      ((Action.setRegister .F 0x800000000000).perform { memory := .zeros 1024 }) 0 = 1 := by
    decide +kernel
  have reached : Reached machine 1 := counted ▸ ((Reached.create created).act _).act .step
  obtain ⟨_, _, _, counter, back⟩ := reached_registers reached
  exact ⟨reached, by decide +kernel, by decide +kernel, counter, back⟩

end Machine

end Sicxe
