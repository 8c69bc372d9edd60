/-!
# Registers

The nine registers of the machine, their numbers in two-byte instructions and their widths.
-/

namespace Sicxe

/-- A register of the machine. -/
inductive Register where
  | A
  | X
  | L
  | B
  | S
  | T
  | F
  | PC
  | SW
  deriving DecidableEq, Repr

/-- The width of a register or of an access to one. -/
inductive Width where
  | word
  | long
  deriving DecidableEq, Repr

/-- A width in bits. -/
def Width.bits : Width → Nat
  | word => 24
  | long => 48

/-- A text that should name a register and does not. -/
structure UnknownRegister where
  text : String
  deriving DecidableEq, Repr

/-- The text of the error. -/
def UnknownRegister.message (unknown : UnknownRegister) : String :=
  "Unknown reg name: " ++ unknown.text

namespace Register

/-- The registers in the order of their numbers. -/
def all : List Register := [A, X, L, B, S, T, F, PC, SW]

/-- The name of a register. -/
def name : Register → String
  | A => "A"
  | X => "X"
  | L => "L"
  | B => "B"
  | S => "S"
  | T => "T"
  | F => "F"
  | PC => "PC"
  | SW => "SW"

/-- The number of a register in an instruction. -/
def number : Register → Nat
  | A => 0
  | X => 1
  | L => 2
  | B => 3
  | S => 4
  | T => 5
  | F => 6
  | PC => 8
  | SW => 9

/-- The floating-point register holds a long word, every other one a word. -/
def width : Register → Width
  | F => .long
  | _ => .word

/-- The register with a number; 7 and the numbers from 10 on name none. -/
def ofNumber? (number : Nat) : Option Register :=
  all.find? fun register => register.number == number

/-- The register with a name, in letters of either case. -/
def parse? (text : List Char) : Option Register :=
  all.find? fun register => register.name.toList == text.map Char.toUpper

/-- The register that a text names. -/
def parse (text : String) : Except UnknownRegister Register :=
  match parse? text.toList with
  | some register => .ok register
  | none => .error ⟨text⟩

theorem mem_all (register : Register) : register ∈ all := by
  cases register <;> decide

/-- A register is found by its number. -/
theorem ofNumber?_number (register : Register) : ofNumber? register.number = some register := by
  cases register <;> rfl

end Register

end Sicxe
