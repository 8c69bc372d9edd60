import Sicxe.Machine.Basic

/-!
# Snapshots

A snapshot is a copy of the state of a machine without its memory, for reports.
-/

namespace Sicxe

/-- The name of a condition code in reports. -/
def ConditionCode.name : ConditionCode → String
  | equal => "Eq"
  | less => "Lt"
  | greater => "Gt"

/-- A copy of the state of a machine. -/
structure Snapshot where
  registers : Registers
  /-- The address of the next instruction. -/
  counter : Nat
  code : ConditionCode
  steps : Nat
  halted : Bool
  /-- The text of the fault. -/
  fault : Option String
  deriving DecidableEq, Repr

/-- The state of a machine. -/
def Machine.snapshot (machine : Machine) : Snapshot where
  registers := machine.registers
  counter := machine.registers.counter
  code := machine.registers.code
  steps := machine.steps
  halted := machine.halted
  fault := machine.fault.map MachineError.message

namespace Snapshot

/-- The fields of a snapshot by their names, in the order of a report. -/
def fields (snapshot : Snapshot) : List (String × String) :=
  let registers := snapshot.registers
  [("a", toString registers.a), ("x", toString registers.x), ("l", toString registers.l),
    ("b", toString registers.b), ("s", toString registers.s), ("t", toString registers.t),
    ("f", toString registers.f), ("pc", toString snapshot.counter),
    ("sw", toString registers.sw), ("cc", snapshot.code.name), ("steps", toString snapshot.steps),
    ("halted", toString snapshot.halted), ("fault", snapshot.fault.getD "null")]

/-- The report of a snapshot, one field on each line. -/
def report (snapshot : Snapshot) : String :=
  String.join (snapshot.fields.map fun (name, value) => name ++ ": " ++ value ++ "\n")

end Snapshot

end Sicxe
