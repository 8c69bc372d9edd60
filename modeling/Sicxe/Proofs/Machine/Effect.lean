import Sicxe.Machine.Basic
import Sicxe.Proofs.Machine.Registers
import Sicxe.Proofs.Success

/-!
# What an instruction does

`Instruction.Does` lists the effects that an instruction can have, each with what is known where it
occurs. What holds of every instruction is then a matter of these cases, without another look at how
the effects are worked out.

* `Instruction.perform_cases`, `Machine.next_cases`: the effect of an instruction is one of them.
* `Instruction.Does.inWidth`: registers that hold values of their widths hold such values
  afterwards.
* `Instruction.Does.halts_cases`: what an instruction that halts the machine has done.
-/

namespace Sicxe

namespace Instruction

variable {instruction : Instruction} {context : Context} {operation : Operation}
variable {effect : Effect} {behavior : Behavior}

theorem inWidth_setResult {registers : Registers} (inWidth : registers.InWidth)
    (register : Register) (operation : Arithmetic) (result : Int) :
    (setResult registers register operation result).InWidth := by
  unfold setResult
  dsimp only
  split
  · exact (inWidth.set register result).setCode _
  · exact inWidth.set register result

/-- The effects of a behavior. -/
inductive Does (instruction : Instruction) (context : Context) : Behavior → Effect → Prop
  | load (register : Register) (value : Int) :
      Does instruction context (.load register)
        { registers := context.registers.set register value }
  | loadByte (value : Int) :
      Does instruction context .loadByte { registers := context.registers.set .A value }
  | store (register : Register) {address : Nat} {bytes : List UInt8}
      (located : instruction.storeAddress context = .ok address)
      (length : 8 * bytes.length = register.width.bits)
      (inside : address + bytes.length ≤ context.memory.size) :
      Does instruction context (.store register)
        { registers := context.registers, store := some (address, bytes) }
  | storeByte {address : Nat} (byte : UInt8)
      (located : instruction.storeAddress context = .ok address)
      (inside : address + 1 ≤ context.memory.size) :
      Does instruction context .storeByte
        { registers := context.registers, store := some (address, [byte]) }
  | arithmetic {operation : Arithmetic} {right result : Int}
      (computed : operation.apply context.registers.a right = some result) :
      Does instruction context (.arithmetic operation)
        { registers := setResult context.registers .A operation result }
  | compare (code : ConditionCode) :
      Does instruction context .compare { registers := context.registers.setCode code }
  | countIndex (limit : Int) :
      Does instruction context .countIndex { registers := countIndex context.registers limit }
  | jump {condition : JumpCondition} {place : Place}
      (located : instruction.operand context = .ok place)
      (isTaken : taken condition context.registers.code = true) :
      Does instruction context (.jump condition)
        { registers := context.registers.setCounter place.target,
          halts := place.target == context.pc }
  | pass {condition : JumpCondition}
      (notTaken : taken condition context.registers.code = false) :
      Does instruction context (.jump condition) { registers := context.registers }
  | call {place : Place} (located : instruction.operand context = .ok place) :
      Does instruction context .call
        { registers := (context.registers.set .L context.next).setCounter place.target }
  | returnToCaller :
      Does instruction context .returnToCaller
        { registers := context.registers.setCounter (Word.unsigned context.registers.l),
          halts := Word.unsigned context.registers.l == haltAddress }
  | registerArithmetic {operation : Arithmetic} {first second : Register} {result : Int}
      (pair : instruction.registerPair context = .ok (first, second))
      (computed : operation.apply (context.registers.get second) (context.registers.get first) =
        some result) :
      Does instruction context (.registerArithmetic operation)
        { registers := setResult context.registers second operation result }
  | registerCompare (code : ConditionCode) :
      Does instruction context .registerCompare { registers := context.registers.setCode code }
  | clear {first second : Register}
      (pair : instruction.registerPair context = .ok (first, second)) :
      Does instruction context .clear { registers := context.registers.set first 0 }
  | move {source target : Register}
      (pair : instruction.registerPair context = .ok (source, target))
      (sameWidth : target.width = source.width) :
      Does instruction context .move
        { registers := context.registers.set target (context.registers.get source) }
  | shift {number places : Nat} {register : Register} {behavior : Behavior} (value : Int)
      (isShift : behavior = .shiftLeft ∨ behavior = .shiftRight)
      (halves : instruction.halfBytes context = .ok (number, places))
      (named : Registers.byNumber number = .ok register) :
      Does instruction context behavior
        { registers := context.registers.set register value }
  | registerCountIndex (limit : Int) :
      Does instruction context .registerCountIndex
        { registers := countIndex context.registers limit }

/-! ### The effect of an instruction -/

theorem getWord_eq_ok {registers : Registers} {register : Register} {value : Int}
    (read : registers.getWord register = .ok value) : registers.get register = value := by
  unfold Registers.getWord at read
  split at read
  · exact Except.ok.inj read
  · cases read

/-- Bytes are stored where they fit. -/
theorem store_cases {address : Nat} {bytes : List UInt8}
    (stored : store context address bytes = .ok effect) :
    address + bytes.length ≤ context.memory.size ∧
      effect = { registers := context.registers, store := some (address, bytes) } := by
  obtain ⟨_, checked, same⟩ := bind_eq_ok_iff.mp stored
  cases same
  unfold Memory.check at checked
  split at checked
  · rename_i inside
    exact ⟨inside, rfl⟩
  · cases checked

theorem executeLoad_cases {register : Register}
    (executed : instruction.executeLoad context register = .ok effect) :
    Does instruction context (.load register) effect := by
  obtain ⟨place, _, executed⟩ := bind_eq_ok_iff.mp executed
  dsimp only at executed
  split at executed
  all_goals
    obtain ⟨value, _, same⟩ := bind_eq_ok_iff.mp executed
    cases same
    exact .load register value

theorem executeStore_cases {register : Register}
    (executed : instruction.executeStore context register = .ok effect) :
    Does instruction context (.store register) effect := by
  obtain ⟨address, located, stored⟩ := bind_eq_ok_iff.mp executed
  obtain ⟨inside, rfl⟩ := store_cases stored
  refine .store register located ?_ inside
  cases register.width <;> exact congrArg (8 * ·) (Bytes.length_ofNat ..)

theorem executeJump_cases {condition : JumpCondition}
    (executed : instruction.executeJump context condition = .ok effect) :
    Does instruction context (.jump condition) effect := by
  obtain ⟨place, located, executed⟩ := bind_eq_ok_iff.mp executed
  by_cases isTaken : taken condition context.registers.code = true
  · rw [if_pos isTaken] at executed
    cases executed
    exact .jump located isTaken
  · rw [if_neg isTaken] at executed
    cases executed
    exact .pass (Bool.eq_false_iff.mpr isTaken)

theorem executeShift_cases {shift : Int → Nat → Int}
    (isShift : behavior = .shiftLeft ∨ behavior = .shiftRight)
    (executed : instruction.executeShift context shift = .ok effect) :
    Does instruction context behavior effect := by
  obtain ⟨⟨number, places⟩, halves, executed⟩ := bind_eq_ok_iff.mp executed
  obtain ⟨register, named, executed⟩ := bind_eq_ok_iff.mp executed
  obtain ⟨value, _, same⟩ := bind_eq_ok_iff.mp executed
  cases same
  exact .shift _ isShift halves named

theorem executeMove_cases (executed : instruction.executeMove context = .ok effect) :
    Does instruction context .move effect := by
  obtain ⟨⟨source, target⟩, pair, executed⟩ := bind_eq_ok_iff.mp executed
  by_cases sameWidth : target.width = source.width
  · simp only [if_pos sameWidth] at executed
    cases executed
    exact .move pair sameWidth
  · simp only [if_neg sameWidth] at executed
    cases executed

theorem executeRegisterArithmetic_cases {operation : Arithmetic}
    (executed : instruction.executeRegisterArithmetic context operation = .ok effect) :
    Does instruction context (.registerArithmetic operation) effect := by
  obtain ⟨⟨first, second⟩, pair, executed⟩ := bind_eq_ok_iff.mp executed
  obtain ⟨right, rightRead, executed⟩ := bind_eq_ok_iff.mp executed
  obtain ⟨left, leftRead, executed⟩ := bind_eq_ok_iff.mp executed
  cases getWord_eq_ok rightRead
  cases getWord_eq_ok leftRead
  split at executed
  · rename_i computed
    cases executed
    exact .registerArithmetic pair computed
  · cases executed

/-- **The effect of an instruction is one of those of its behavior.** -/
theorem perform_cases (performed : instruction.perform operation context = .ok effect) :
    Does instruction context operation.behavior effect := by
  unfold perform at performed
  dsimp only at performed
  split at performed
  case h_1 register isLoad =>
    rw [isLoad]
    exact executeLoad_cases performed
  case h_2 isLoadByte =>
    obtain ⟨_, _, performed⟩ := bind_eq_ok_iff.mp performed
    obtain ⟨_, _, same⟩ := bind_eq_ok_iff.mp performed
    cases same
    rw [isLoadByte]
    exact .loadByte _
  case h_3 register isStore =>
    rw [isStore]
    exact executeStore_cases performed
  case h_4 isStoreByte =>
    obtain ⟨address, located, stored⟩ := bind_eq_ok_iff.mp performed
    obtain ⟨inside, rfl⟩ := store_cases stored
    rw [isStoreByte]
    exact .storeByte _ located inside
  case h_5 operation isArithmetic =>
    obtain ⟨_, _, performed⟩ := bind_eq_ok_iff.mp performed
    obtain ⟨right, _, performed⟩ := bind_eq_ok_iff.mp performed
    rw [isArithmetic]
    split at performed
    · rename_i computed
      cases performed
      exact .arithmetic computed
    · cases performed
  case h_6 isCompare =>
    obtain ⟨_, _, performed⟩ := bind_eq_ok_iff.mp performed
    obtain ⟨_, _, same⟩ := bind_eq_ok_iff.mp performed
    cases same
    rw [isCompare]
    exact .compare _
  case h_7 isCount =>
    obtain ⟨_, _, performed⟩ := bind_eq_ok_iff.mp performed
    obtain ⟨limit, _, same⟩ := bind_eq_ok_iff.mp performed
    cases same
    rw [isCount]
    exact .countIndex limit
  case h_8 condition isJump =>
    rw [isJump]
    exact executeJump_cases performed
  case h_9 isCall =>
    obtain ⟨place, located, same⟩ := bind_eq_ok_iff.mp performed
    cases same
    rw [isCall]
    exact .call located
  case h_10 isReturn =>
    cases performed
    rw [isReturn]
    exact .returnToCaller
  case h_11 operation isArithmetic =>
    rw [isArithmetic]
    exact executeRegisterArithmetic_cases performed
  case h_12 isCompare =>
    obtain ⟨_, _, performed⟩ := bind_eq_ok_iff.mp performed
    obtain ⟨_, _, performed⟩ := bind_eq_ok_iff.mp performed
    obtain ⟨_, _, same⟩ := bind_eq_ok_iff.mp performed
    cases same
    rw [isCompare]
    exact .registerCompare _
  case h_13 isClear =>
    obtain ⟨_, pair, same⟩ := bind_eq_ok_iff.mp performed
    cases same
    rw [isClear]
    exact .clear pair
  case h_14 isMove =>
    rw [isMove]
    exact executeMove_cases performed
  case h_15 isShift => exact executeShift_cases (Or.inl isShift) performed
  case h_16 isShift => exact executeShift_cases (Or.inr isShift) performed
  case h_17 isCount =>
    obtain ⟨_, _, performed⟩ := bind_eq_ok_iff.mp performed
    obtain ⟨limit, _, same⟩ := bind_eq_ok_iff.mp performed
    cases same
    rw [isCount]
    exact .registerCountIndex limit
  case h_18 => cases performed

/-! ### What all effects have in common -/

/-- **Whatever an instruction does, the registers hold values of their widths afterwards.** -/
theorem Does.inWidth (does : Does instruction context behavior effect)
    (inWidth : context.registers.InWidth) : effect.registers.InWidth := by
  cases does with
  | load register value => exact inWidth.set register value
  | loadByte value => exact inWidth.set .A value
  | store | storeByte | pass => exact inWidth
  | arithmetic computed => exact inWidth_setResult inWidth _ _ _
  | compare code => exact inWidth.setCode code
  | countIndex limit => exact (inWidth.set .X _).setCode _
  | jump located isTaken => exact inWidth.setCounter _
  | call located => exact (inWidth.set .L _).setCounter _
  | returnToCaller => exact inWidth.setCounter _
  | registerArithmetic pair computed => exact inWidth_setResult inWidth _ _ _
  | registerCompare code => exact inWidth.setCode code
  | clear pair => exact inWidth.set _ 0
  | move pair sameWidth => exact inWidth.set _ _
  | shift value isShift halves named => exact inWidth.set _ value
  | registerCountIndex limit => exact (inWidth.set .X _).setCode _

/-- **An instruction that halts the machine is a jump to itself or a return to the address that
stops it.** -/
theorem Does.halts_cases (does : Does instruction context behavior effect)
    (halts : effect.halts = true) :
    (∃ condition, behavior = .jump condition ∧ effect.store = none ∧
      effect.registers = context.registers.setCounter context.pc) ∨
    behavior = .returnToCaller ∧ Word.unsigned context.registers.l = haltAddress := by
  cases does with
  | jump located isTaken =>
    have toItself := eq_of_beq halts
    refine Or.inl ⟨_, rfl, rfl, ?_⟩
    rw [toItself]
  | returnToCaller => exact Or.inr ⟨rfl, eq_of_beq halts⟩
  | _ => cases halts

end Instruction

namespace Machine

variable {machine : Machine} {pc : Nat} {instruction : Instruction} {effect : Effect}

/-- What an instruction at the counter of a machine is executed in. -/
def executing (machine : Machine) (instruction : Instruction) : Instruction.Context :=
  let pc := machine.registers.counter
  let following := Word.unsigned (pc + instruction.length : Nat)
  ⟨machine.memory, machine.registers.setCounter following, pc, following⟩

/-- **What a machine is about to do**: the instruction at its counter, with an effect of the
instruction's behavior on the registers that already point to the next instruction. -/
theorem next_cases (next : machine.next = .ok (pc, instruction, effect)) :
    pc = machine.registers.counter ∧ Instruction.fetch machine.memory pc = .ok instruction ∧
      ∃ operation, instruction.operation? = some operation ∧
        instruction.Does (machine.executing instruction) operation.behavior effect := by
  obtain ⟨fetched, fetches, next⟩ := bind_eq_ok_iff.mp next
  obtain ⟨done, executed, same⟩ := bind_eq_ok_iff.mp next
  cases same
  refine ⟨rfl, fetches, ?_⟩
  unfold Instruction.execute at executed
  split at executed
  · cases executed
  · rename_i operation found
    exact ⟨operation, found, Instruction.perform_cases executed⟩

end Machine

end Sicxe
