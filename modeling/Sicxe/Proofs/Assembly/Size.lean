import Sicxe.Proofs.Assembly.Module
import Sicxe.Proofs.Assembly.Statements

/-!
# The sizes of the lines

What is reserved for a line against what the line is encoded as. `assemble_size`: every operation
and every line of data takes exactly the bytes of its encoding, except a return written with `+`,
which takes one byte more (`assemble_size_extendedReturn`).
-/

namespace Sicxe

/-- Whether a command is a return written with `+`. -/
def Command.isExtendedReturn : Command → Bool
  | .operation found extended => extended && found.mnemonic == .RSUB
  | .directive _ => false

/-- The return is the only operation of the three byte family that takes no operand. -/
theorem Operation.mnemonic_eq_RSUB_iff : ∀ found ∈ table,
    found.mnemonic = .RSUB ↔ found.format = .three ∧ found.operand = .none := by
  decide

namespace Placement

variable {source : String} {placement : Placement} {object : Object} {line : PlacedLine}
variable {before after : List PlacedLine} {found : Operation} {extended : Bool}

/-- **An operation has an operand exactly if it takes one.** -/
theorem operand_eq_none_iff (succeeded : ofSource source = .ok placement)
    (member : line ∈ placement.lines) (isOperation : line.command = .operation found extended) :
    line.operand = none ↔ found.operand = .none := by
  cases origin_of_mem succeeded member with
  | @statement _ _ statement _ _ _ parsed =>
    have isOperation : statement.command = .operation found extended := isOperation
    obtain ⟨_, _, absent, present⟩ := Statement.parse_cases parsed
    simp only [isOperation, Command.takesOperand, Command.requiresOperand] at absent present
    show statement.operand = none ↔ _
    by_cases takes : found.operand = .none
    · simp only [takes, iff_true]
      exact absent (by simp [takes])
    · simp only [takes, iff_false]
      exact present (by simp [takes])
  | literal => cases isOperation

/-- **Only a return written with `+` has a byte to spare.** -/
theorem spare_eq (succeeded : ofSource source = .ok placement) (member : line ∈ placement.lines)
    (isOperation : line.command = .operation found extended) :
    spare line found extended = if line.command.isExtendedReturn then 1 else 0 := by
  have isReturn := Operation.mnemonic_eq_RSUB_iff found
    (mem_table_of_operation succeeded member isOperation)
  have operand := operand_eq_none_iff succeeded member isOperation
  unfold spare
  congr 1
  rw [isOperation, operand]
  simp only [Command.isExtendedReturn, Bool.and_eq_true, beq_iff_eq, isReturn, eq_iff_iff]
  constructor
  · rintro ⟨isThree, isExtended, absent⟩
    exact ⟨isExtended, isThree, absent⟩
  · rintro ⟨isExtended, isThree, absent⟩
    exact ⟨isThree, isExtended, absent⟩

end Placement

section

variable {source : String} {placement : Placement} {object : Object} {line : PlacedLine}
variable {before after : List PlacedLine}

/-- **What is reserved for a line is what the line is encoded as**, under the base that the lines
before it leave in force. A return written with `+` alone has one byte more. -/
theorem assemble_size (assembled : assemble source = .ok (placement, object))
    (split : placement.lines = before ++ line :: after) (emits : line.command.emits = true) :
    ∃ inForce encoded, before.foldlM placement.nextBase none = .ok inForce ∧
      placement.encodeLine inForce line = .ok encoded ∧
      line.size = encoded.bytes.length + if line.command.isExtendedReturn then 1 else 0 := by
  obtain ⟨placed, emitted, made⟩ := assemble_assembled assembled
  obtain ⟨_, _, encoded, inForce, _, reached, encodes⟩ := made.exists_split split
  have member : line ∈ placement.lines := by
    rw [split]
    exact List.mem_append_right _ List.mem_cons_self
  have sized := Placement.sized placed line member
  refine ⟨inForce, encoded, reached, encodes, ?_⟩
  cases command : line.command with
  | operation found extended =>
    rw [← command, ← Placement.spare_eq placed member command]
    exact Placement.length_encodeLine_operation sized command encodes
  | directive directive =>
    exact Placement.length_encodeLine_data sized command emits encodes

end

/-- The line that holds a literal takes the byte of the literal. -/
theorem assemble_size_literal : ∃ placement object before line after,
    assemble " LDCH =C'A'\n END" = .ok (placement, object) ∧
      placement.lines = before ++ line :: after ∧ line.command.emits = true ∧ line.line = 0 ∧
      ∃ inForce encoded, before.foldlM placement.nextBase none = .ok inForce ∧
        placement.encodeLine inForce line = .ok encoded ∧
        line.size = encoded.bytes.length + if line.command.isExtendedReturn then 1 else 0 := by
  obtain ⟨⟨placement, object⟩, assembled, lines⟩ := exists_ok_of_map
    (show ((assemble " LDCH =C'A'\n END").map fun result => result.1.lines).toOption =
      some ([⟨1, none, .operation ⟨.LDCH, 0x50, .three, .memory, .loadByte⟩ false,
          some "=C'A'", 0, 3⟩, ⟨2, none, .directive .END, none, 3, 0⟩] ++
        ⟨0, none, .directive .BYTE, some "C'A'", 3, 1⟩ :: []) by
      decide +kernel)
  exact ⟨placement, object, _, _, _, assembled, lines, rfl, rfl, assemble_size assembled lines rfl⟩

/-- **A return written with `+` takes four bytes and is encoded in three.** -/
theorem assemble_size_extendedReturn : ∃ placement object line after encoded,
    assemble " +RSUB\n END" = .ok (placement, object) ∧ placement.lines = line :: after ∧
      line.command.emits = true ∧ placement.encodeLine none line = .ok encoded ∧
      line.size = 4 ∧ encoded.bytes = [0x4C, 0, 0] ∧ object.code = #[0x4C, 0, 0, 0] := by
  obtain ⟨⟨placement, object⟩, assembled, same⟩ := exists_ok_of_map
    (show ((assemble " +RSUB\n END").map
        fun result => (result.1.lines, result.2.code)).toOption =
      some ([⟨1, none, .operation ⟨.RSUB, 0x4C, .three, .none, .returnToCaller⟩ true, none, 0, 4⟩,
        ⟨2, none, .directive .END, none, 4, 0⟩], #[0x4C, 0, 0, 0]) by
      decide +kernel)
  obtain ⟨lines, code⟩ := Prod.ext_iff.mp same
  exact ⟨placement, object, _, _, ⟨[0x4C, 0, 0], none⟩, assembled, lines, rfl, rfl, rfl, rfl, code⟩

end Sicxe
