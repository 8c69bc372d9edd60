import Sicxe.Proofs.Machine.History

/-!
# Halted and faulted machines

The status of a machine is its fault, whether it has halted, and the number of steps. What actions
do to it is said once (`Action.status_cases`), and the facts about whole histories come from there
by induction.

* `Machine.runWith_counted`: the counter of a machine counts the instructions of a run.
* `Reached.exclusive`: a machine that has halted has no fault.
* `Leads.faulted`, `Leads.halted`: both states last until an action ends them.
* `Machine.HaltsBy`, `Machine.haltsBy_of_step`: how an instruction halts a machine.
* `Machine.reached_status`: all of these for the machines that a history can lead to.
-/

namespace Sicxe

namespace Machine

variable {machine later : Machine} {executed : Nat}

/-! ### Counting the instructions of a run -/

theorem steps_step (machine : Machine) :
    machine.step.1.steps = machine.steps + if machine.step.2.isOk then 1 else 0 := by
  have same := step_cases machine
  generalize machine.step = result at same
  cases same with
  | faulted | stopped | failed => rfl
  | executed => exact steps_commit ..

/-- **The counter grows by one for each instruction that an observer sees**, and an observer that
counts them beside another one changes nothing in the run. -/
theorem runWith_counted {σ : Type} (stop : σ → Bool) (observe : Machine → Step → σ → σ)
    (limit : Nat) (machine : Machine) (observed : σ) (count : Nat) :
    let counted := machine.runWith (fun seen => stop seen.1)
      (fun machine step seen => (observe machine step seen.1, seen.2 + 1)) limit (observed, count)
    let plain := machine.runWith stop observe limit observed
    counted.machine = plain.machine ∧ counted.result = plain.result ∧
      counted.observed.1 = plain.observed ∧
      counted.machine.steps + count = machine.steps + counted.observed.2 := by
  induction limit generalizing machine observed count with
  | zero =>
    unfold runWith
    split
    · exact ⟨rfl, rfl, rfl, rfl⟩
    · dsimp only
      split <;> exact ⟨rfl, rfl, rfl, rfl⟩
  | succ limit ih =>
    have counts := steps_step machine
    unfold runWith
    split
    · exact ⟨rfl, rfl, rfl, rfl⟩
    · dsimp only
      split
      · exact ⟨rfl, rfl, rfl, rfl⟩
      · split
        · rename_i failed
          rw [failed] at counts
          exact ⟨rfl, rfl, rfl, congrArg (· + count) counts⟩
        · rename_i next step done
          rw [done] at counts
          obtain ⟨sameMachine, sameResult, sameObserved, sum⟩ :=
            ih next (observe next step observed) (count + 1)
          refine ⟨sameMachine, sameResult, sameObserved, ?_⟩
          have one : next.steps = machine.steps + 1 := counts
          omega

/-! ### What actions do to the status -/

/-- What an action can do to the status of a machine. -/
inductive StatusCase (machine : Machine) (action : Action) : Prop
  /-- Steps were made. -/
  | ran (keeps : ∀ property : Machine → Prop,
        (∀ machine, property machine → property machine.step.1) → property machine →
          property (action.perform machine))
      (goesOn : action.restarts machine = false)
      (counted : (action.perform machine).steps = machine.steps + action.executed machine)
  | restarted (restarts : action.restarts machine = true)
      (fault : (action.perform machine).fault = none)
      (halted : (action.perform machine).halted = false)
      (steps : (action.perform machine).steps = 0)
  | cleared (clears : action = .clearFault)
  | kept (goesOn : action.restarts machine = false)
      (fault : (action.perform machine).fault = machine.fault)
      (halted : (action.perform machine).halted = machine.halted)
      (steps : (action.perform machine).steps = machine.steps + action.executed machine)

theorem load_fresh {object : Object} {base : Option UInt32} {report : LoadReport}
    (loaded : machine.load object base = .ok (later, report)) :
    later.fault = none ∧ later.halted = false ∧ later.steps = 0 := by
  obtain ⟨_, _, loaded⟩ := bind_eq_ok_iff.mp loaded
  obtain ⟨_, _, same⟩ := bind_eq_ok_iff.mp loaded
  cases same
  exact ⟨rfl, rfl, rfl⟩

theorem StatusCase.of_perform {action : Action} {memory : Memory} {registers : Registers}
    (performed : action.perform machine = { machine with memory, registers })
    (goesOn : action.restarts machine = false) (idle : action.executed machine = 0) :
    StatusCase machine action := by
  refine .kept goesOn ?_ ?_ ?_
  · rw [performed]
  · rw [performed]
  · rw [performed, idle]
    rfl

/-- **An action runs the machine, restarts it, clears its fault, or leaves its status alone.** -/
theorem Action.status_cases (machine : Machine) (action : Action) : StatusCase machine action := by
  cases action with
  | step => exact .ran (fun _ steps holds => steps _ holds) rfl (steps_step machine)
  | run stop observe limit observed =>
    refine .ran (fun property steps => runWith_induction property steps limit observed) rfl ?_
    obtain ⟨same, _, _, sum⟩ := runWith_counted stop observe limit machine observed 0
    rw [same] at sum
    exact sum
  | load object base =>
    cases loaded : machine.load object base with
    | ok result =>
      obtain ⟨later, report⟩ := result
      obtain ⟨fault, halted, steps⟩ := load_fresh loaded
      have performed : (Action.load object base).perform machine = later := by
        simp only [perform, loaded]
      refine .restarted ?_ ?_ ?_ ?_
      · simp only [restarts, loaded, Except.isOk, Except.toBool]
      · rw [performed, fault]
      · rw [performed, halted]
      · rw [performed, steps]
    | error error =>
      have performed : (Action.load object base).perform machine =
          { machine with memory := machine.memory } := by
        simp only [perform, loaded]
      refine .of_perform performed ?_ rfl
      simp only [restarts, loaded, Except.isOk, Except.toBool]
  | reset => exact .restarted rfl rfl rfl rfl
  | clearFault => exact .cleared rfl
  | setRegister | setCounter | setCode | clearRegisters | putMemory => exact .of_perform rfl rfl rfl

/-- Whether an action ends a fault: to clear it does, and so does a fresh start. -/
def Action.clearsFault (machine : Machine) : Action → Bool
  | clearFault => true
  | action => action.restarts machine

theorem Action.clearsFault_of_restarts {action : Action}
    (restarts : action.restarts machine = true) : action.clearsFault machine = true := by
  cases action <;> first | exact restarts | rfl

/-! ### The counter and the two states in the course of a history -/

/-- **The counter of a machine is the number of instructions executed since its last fresh
start.** -/
theorem Reached.steps (reached : Reached machine executed) : machine.steps = executed := by
  induction reached with
  | create created => rw [(create_eq_ok_iff.mp created).2]
  | @act before _ action _ ih =>
    rw [← ih]
    unfold Action.count
    cases action.status_cases before with
    | ran _ goesOn counted => rw [goesOn, counted, if_neg Bool.false_ne_true]
    | restarted restarts _ _ steps => rw [restarts, steps, if_pos rfl]
    | cleared clears =>
      cases clears
      rfl
    | kept goesOn _ _ steps => rw [goesOn, steps, if_neg Bool.false_ne_true]

/-- A machine has halted without a fault, or not at all. -/
def Exclusive (machine : Machine) : Prop :=
  machine.halted = true → machine.fault = none

theorem exclusive_step (exclusive : machine.Exclusive) : machine.step.1.Exclusive := by
  have same := step_cases machine
  generalize machine.step = result at same
  cases same with
  | faulted | stopped => exact exclusive
  | executed fresh => exact fun _ => fresh
  | failed _ running =>
    intro halted
    rw [running] at halted
    cases halted

theorem Reached.exclusive (reached : Reached machine executed) : machine.Exclusive := by
  induction reached with
  | create created =>
    rw [(create_eq_ok_iff.mp created).2]
    exact fun _ => rfl
  | @act before _ action _ ih =>
    cases action.status_cases before with
    | ran keeps => exact keeps Exclusive (fun _ => exclusive_step) ih
    | restarted _ fault => exact fun _ => fault
    | cleared clears =>
      cases clears
      exact fun _ => rfl
    | kept _ fault halted =>
      intro isHalted
      rw [fault]
      exact ih (halted ▸ isHalted)

/-! ### How long the two states last -/

/-- Actions lead from one machine to another, and each of them is allowed where it is done. -/
inductive Leads (allowed : Machine → Action → Prop) (machine : Machine) : Machine → Prop
  | refl : Leads allowed machine machine
  | act {later : Machine} (action : Action) (before : Leads allowed machine later)
      (isAllowed : allowed later action) : Leads allowed machine (action.perform later)

theorem step_faulted {error : MachineError} (fault : machine.fault = some error) :
    machine.step = (machine, .error error) := by
  unfold step
  rw [fault]

theorem step_halted (fresh : machine.fault = none) (halted : machine.halted = true) :
    machine.step = (machine, .error .halted) := by
  unfold step
  rw [fresh, halted]
  rfl

/-- **A fault lasts until it is cleared or the machine has a fresh start.** -/
theorem Leads.faulted {error : MachineError}
    (leads : Leads (fun machine action => action.clearsFault machine = false) machine later)
    (fault : machine.fault = some error) : later.fault = some error := by
  induction leads with
  | refl => exact fault
  | @act later action _ isAllowed ih =>
    cases action.status_cases later with
    | ran keeps =>
      refine keeps (fun machine => machine.fault = some error) ?_ ih
      intro machine fault
      rw [step_faulted fault]
      exact fault
    | restarted restarts =>
      rw [Action.clearsFault_of_restarts restarts] at isAllowed
      cases isAllowed
    | cleared clears =>
      cases clears
      cases isAllowed
    | kept _ fault => exact fault.trans ih

/-- **A machine stays halted until it has a fresh start.** -/
theorem Leads.halted
    (leads : Leads (fun machine action => action.restarts machine = false) machine later)
    (fresh : machine.fault = none) (halted : machine.halted = true) :
    later.fault = none ∧ later.halted = true := by
  induction leads with
  | refl => exact ⟨fresh, halted⟩
  | @act later action _ isAllowed ih =>
    cases action.status_cases later with
    | ran keeps =>
      refine keeps (fun machine => machine.fault = none ∧ machine.halted = true) ?_ ih
      intro machine ⟨fresh, halted⟩
      rw [step_halted fresh halted]
      exact ⟨fresh, halted⟩
    | restarted restarts =>
      rw [restarts] at isAllowed
      cases isAllowed
    | cleared clears =>
      cases clears
      exact ⟨rfl, ih.2⟩
    | kept _ fault halted => exact ⟨fault.trans ih.1, halted.trans ih.2⟩

/-! ### How a machine halts -/

theorem mnemonic_eq_RSUB_of_returnToCaller : ∀ operation ∈ Operation.table,
    operation.behavior = .returnToCaller → operation.mnemonic = .RSUB := by
  decide +kernel

/-- How an instruction halts a machine. A jump to itself leaves the registers and the memory as they
were, so that the machine would do the same again; RSUB finds the address in L that stops it. -/
inductive HaltsBy (before after : Machine) (instruction : Instruction) : Prop
  | jump {operation : Operation} {condition : JumpCondition}
      (found : instruction.operation? = some operation)
      (isJump : operation.behavior = .jump condition)
      (registers : after.registers = before.registers) (memory : after.memory = before.memory)
      (again : after.next = before.next)
  | returned {operation : Operation} (found : instruction.operation? = some operation)
      (isReturn : operation.mnemonic = .RSUB)
      (toHalt : Word.unsigned before.registers.l = 0xFFFFFF)

/-- **A machine is halted by a jump to itself or by RSUB.** -/
theorem haltsBy_of_step {step : Step} (inWidth : machine.registers.InWidth)
    (stepped : machine.step = (later, .ok step)) (halted : later.halted = true) :
    HaltsBy machine later step.instruction := by
  have same := step_cases machine
  rw [stepped] at same
  cases same with
  | @executed pc instruction effect fresh running next =>
    obtain ⟨_, _, operation, found, does⟩ := next_cases next
    rcases does.halts_cases halted with ⟨condition, isJump, stores, moved⟩ | ⟨isReturn, toHalt⟩
    · have memory : (machine.commit effect).memory = machine.memory := by
        rw [memory_commit, stores, Option.elim_none]
      have registers : (machine.commit effect).registers = machine.registers :=
        calc effect.registers
            = (machine.executing instruction).registers.setCounter machine.registers.counter := moved
          _ = machine.registers.setCounter machine.registers.counter :=
            Registers.setCounter_setCounter ..
          _ = machine.registers := Registers.setCounter_counter inWidth
      refine .jump found isJump registers memory ?_
      unfold Machine.next
      rw [memory, registers]
    · have inTable := (Operation.mem_table_of_ofOpcode? found).1
      have link : (machine.executing instruction).registers.l = machine.registers.l :=
        Registers.l_setCounter ..
      rw [link] at toHalt
      exact .returned found (mnemonic_eq_RSUB_of_returnToCaller _ inTable isReturn) toHalt

/-- A machine that halts in the course of a history was halted by a step. -/
def HaltedByStep (machine : Machine) : Prop :=
  ∃ before executed step, Reached before executed ∧ before.step = (machine, .ok step)

theorem haltedByStep_perform (reached : Reached machine executed) (action : Action)
    (running : machine.halted = false) (halted : (action.perform machine).halted = true) :
    (action.perform machine).HaltedByStep := by
  cases action.status_cases machine with
  | ran keeps =>
    have atEnd := keeps
      (fun machine => (∃ executed, Reached machine executed) ∧
        (machine.halted = true → machine.HaltedByStep)) ?_ ⟨⟨executed, reached⟩, ?_⟩
    · exact atEnd.2 halted
    · intro machine ⟨⟨executed, reached⟩, byStep⟩
      refine ⟨⟨_, reached.act .step⟩, fun halted => ?_⟩
      have same := step_cases machine
      generalize stepped : machine.step = result at same halted
      cases same with
      | faulted | stopped => exact byStep halted
      | executed => exact ⟨machine, executed, _, reached, stepped⟩
      | failed _ running =>
        rw [running] at halted
        cases halted
    · intro halted
      rw [running] at halted
      cases halted
  | restarted _ _ notHalted =>
    rw [notHalted] at halted
    cases halted
  | cleared clears =>
    cases clears
    exact absurd (running.symm.trans halted) Bool.false_ne_true
  | kept _ _ same =>
    rw [same, running] at halted
    cases halted

/-- **The status of every machine that a history leads to.** The machine has not both halted and a
fault, and its counter is the number of instructions since the last fresh start. A fault stays, and
every step repeats it and changes nothing, until it is cleared or the machine has a fresh start; a
machine that has halted stays so, and no step changes anything, until a fresh start. A machine halts
by a step only, which is a jump to itself that leaves the registers and the memory as they were, or
RSUB with the address in L that stops the machine. -/
theorem reached_status {machine : Machine} {executed : Nat} (reached : Reached machine executed) :
    ¬(machine.halted = true ∧ machine.fault ≠ none) ∧
      machine.steps = executed ∧
      (∀ error later, machine.fault = some error →
        Leads (fun machine action => action.clearsFault machine = false) machine later →
          later.fault = some error ∧ later.step = (later, .error error)) ∧
      (∀ later, machine.halted = true →
        Leads (fun machine action => action.restarts machine = false) machine later →
          later.halted = true ∧ later.step = (later, .error .halted)) ∧
      (∀ later step, machine.step = (later, .ok step) → later.halted = true →
        HaltsBy machine later step.instruction) ∧
      ∀ action : Action, machine.halted = false → (action.perform machine).halted = true →
        ∃ before executed step, Reached before executed ∧
          before.step = (action.perform machine, .ok step) ∧
          HaltsBy before (action.perform machine) step.instruction := by
  refine ⟨?_, reached.steps, ?_, ?_, ?_, ?_⟩
  · rintro ⟨halted, faulted⟩
    exact faulted (reached.exclusive halted)
  · intro error later fault leads
    have stays := leads.faulted fault
    exact ⟨stays, step_faulted stays⟩
  · intro later halted leads
    obtain ⟨fresh, stays⟩ := leads.halted (reached.exclusive halted) halted
    exact ⟨stays, step_halted fresh stays⟩
  · intro later step stepped halted
    exact haltsBy_of_step reached.inWidth stepped halted
  · intro action running halted
    obtain ⟨before, executed, step, reached, stepped⟩ :=
      haltedByStep_perform reached action running halted
    exact ⟨before, executed, step, reached, stepped,
      haltsBy_of_step reached.inWidth stepped halted⟩

/-- A machine halts at a jump to itself, and it stays halted when its faults are cleared. -/
theorem reached_status_jump :
    let memory := (Memory.zeros 1024).put 0 [0x3F, 0x2F, 0xFD]
    let machine := Action.step.perform ((Action.putMemory memory).perform { memory := .zeros 1024 })
    Reached machine 1 ∧ machine.halted = true ∧ machine.steps = 1 ∧
      machine.clearFault.step = (machine.clearFault, .error .halted) := by
  intro memory machine
  have created : create 1024 = .ok { memory := .zeros 1024 } :=
    create_eq_ok_iff.mpr ⟨by decide, rfl⟩
  have counted : Action.step.count
      ((Action.putMemory memory).perform { memory := .zeros 1024 }) 0 = 1 := by
    decide +kernel
  have reached : Reached machine 1 := counted ▸ ((Reached.create created).act _).act .step
  have halted : machine.halted = true := by decide +kernel
  obtain ⟨_, steps, _, stays, _⟩ := reached_status reached
  exact ⟨reached, halted, steps, (stays _ halted (.act .clearFault .refl rfl)).2⟩

end Machine

end Sicxe
