import Sicxe.Arithmetic
import Sicxe.Machine.Error

/-!
# The register file

The values of the nine registers, each kept sign-extended from its width. The condition code is in
the low two bits of SW.
-/

namespace Sicxe

/-- The values of the registers. -/
structure Registers where
  a : Int := 0
  x : Int := 0
  l : Int := 0
  b : Int := 0
  s : Int := 0
  t : Int := 0
  f : Int := 0
  pc : Int := 0
  sw : Int := 0
  deriving DecidableEq, Repr

namespace Registers

/-- The value of a register. -/
def get (registers : Registers) : Register → Int
  | .A => registers.a
  | .X => registers.x
  | .L => registers.l
  | .B => registers.b
  | .S => registers.s
  | .T => registers.t
  | .F => registers.f
  | .PC => registers.pc
  | .SW => registers.sw

/-- The registers with the low bits of a value in one of them. -/
def set (registers : Registers) (register : Register) (value : Int) : Registers :=
  let value := signExtend register.width.bits value
  match register with
  | .A => { registers with a := value }
  | .X => { registers with x := value }
  | .L => { registers with l := value }
  | .B => { registers with b := value }
  | .S => { registers with s := value }
  | .T => { registers with t := value }
  | .F => { registers with f := value }
  | .PC => { registers with pc := value }
  | .SW => { registers with sw := value }

/-- **A register holds the low bits of what was put into it, and the others keep their values.** -/
theorem get_set (registers : Registers) (register other : Register) (value : Int) :
    (registers.set register value).get other =
      if other = register then signExtend register.width.bits value else registers.get other := by
  cases register <;> cases other <;> rfl

/-- The value of a register that holds a word. -/
def getWord (registers : Registers) (register : Register) : Except MachineError Int :=
  if register.width = .word then .ok (registers.get register)
  else .error (.registerWidth register .word)

/-- The value of a register that holds a long word. -/
def getLong (registers : Registers) (register : Register) : Except MachineError Int :=
  if register.width = .long then .ok (registers.get register)
  else .error (.registerWidth register .long)

/-- The register with a number. -/
def byNumber (number : Nat) : Except MachineError Register :=
  match Register.ofNumber? number with
  | some register => .ok register
  | none => .error (.invalidRegister number)

/-- The address of the next instruction. -/
def counter (registers : Registers) : Nat :=
  Word.unsigned registers.pc

/-- The registers with another address of the next instruction. -/
def setCounter (registers : Registers) (address : Nat) : Registers :=
  registers.set .PC address

/-- The condition code; the unused pair of bits counts as equal. -/
def code (registers : Registers) : ConditionCode :=
  (ConditionCode.ofNat? (registers.sw % 4).toNat).getD .equal

/-- The registers with another condition code. -/
def setCode (registers : Registers) (code : ConditionCode) : Registers :=
  registers.set .SW (registers.sw - registers.sw % 4 + code.toNat)

end Registers

end Sicxe
