import Sicxe.Proofs.Assembly.Declarations

/-!
# Imports in operands

An operand that contains an import is an offset from it, and the field of the line gets a record
with the name of the import.

* `PlacedLine.Uses`: what a use of a name in an operand is, with the record that it asks for.
* `Placement.Assembled.record_of_use`: the record of a line that uses an import.
* `Placement.ofSource_imports`: the imports of a program are not defined in it, and every use of one
  gets a record, unless an `EXTDEF` line lists the import too.
* `Placement.ofSource_imports_exported`: a program in which a name is imported and exported, and
  assembled as if the name were an address of the program.
-/

namespace Sicxe

/-- The expression `expr` of a line contains a name. Such a use of an import asks for the last
argument as its record, if `offset` is the offset of the line. -/
inductive PlacedLine.Uses (line : PlacedLine) (offset : Nat) (name : String) :
    Expr → Relocation → Prop
  | extended {found : Operation} {text : String} {operand : MemoryOperand} {expr : Expr}
      (isOperation : line.command = .operation found true) (isThree : found.format = .three)
      (given : line.operand = some text) (parsed : MemoryOperand.parse text = .ok operand)
      (isExpr : operand.target = .expression expr) (occurs : name ∈ expr.symbols) :
      Uses line offset name expr (.address20 offset name)
  | short {found : Operation} {text : String} {operand : MemoryOperand} {expr : Expr}
      (isOperation : line.command = .operation found false) (isThree : found.format = .three)
      (given : line.operand = some text) (parsed : MemoryOperand.parse text = .ok operand)
      (isExpr : operand.target = .expression expr) (occurs : name ∈ expr.symbols) :
      Uses line offset name expr (.displacement offset name)
  | word {text : String} {expr : Expr} (isWord : line.command = .directive .WORD)
      (given : line.operand = some text) (parsed : Expr.parse text = .ok expr)
      (occurs : name ∈ expr.symbols) : Uses line offset name expr (.word offset name)

namespace Placement

variable {placement : Placement} {base : Option UInt32} {line : PlacedLine} {name text : String}
variable {encoded : EncodedLine} {expr : Expr} {record : Relocation} {object : Object}
variable {emitted : List EmittedLine}

theorem lookup_import (isImport : name ∈ placement.imports)
    (isFree : placement.symbols.get? name = none) :
    Value.lookup placement.symbols.get? placement.imports name = some (.imported name) := by
  have listed : placement.imports.contains name = true := List.contains_iff_mem.mpr isImport
  simp only [Value.lookup, isFree, listed, if_true]

/-- The field of an offset from an import holds the offset. -/
theorem addressField_import {value : Value} (isImport : value.external = some name) :
    placement.addressField text value = .ok ⟨value.constant, some name⟩ := by
  simp only [addressField, isImport]

/-- A reference to an import has a record. -/
theorem ReferenceForm.record_of_import {opcode : UInt8} {operand : MemoryOperand} {value : Value}
    {extended : Bool} {instruction : Instruction} {record : Option Relocation}
    (isImport : value.external = some name)
    (form : ReferenceForm placement base line opcode operand text value extended instruction
      record) :
    record = some (if extended then .address20 (placement.offset line) name
      else .displacement (placement.offset line) name) := by
  cases form with
  | extended holds =>
    rw [addressField_import isImport] at holds
    cases holds
    rfl
  | imported other =>
    cases isImport.symm.trans other
    rfl
  | constant isLocal => cases isImport.symm.trans isLocal
  | based isLocal => cases isImport.symm.trans isLocal
  | counted isLocal => cases isImport.symm.trans isLocal

/-- **The line that uses an import has the record that the use asks for.** -/
theorem encodeLine_of_use (isImport : name ∈ placement.imports)
    (isFree : placement.symbols.get? name = none)
    (uses : line.Uses (placement.offset line) name expr record)
    (encodes : placement.encodeLine base line = .ok encoded) :
    (∃ value, placement.evalExpr expr line.address = .ok value ∧ value.external = some name) ∧
      encoded.record = some record := by
  have imported := lookup_import isImport isFree
  cases uses with
  | extended isOperation isThree given parsed isExpr occurs =>
    obtain ⟨operand, value, _, same, evaluated, form, _⟩ :=
      encodeLine_reference isOperation isThree given encodes
    cases parsed.symm.trans same
    rw [isExpr] at evaluated
    have external := Expr.external_of_mem imported occurs evaluated
    exact ⟨⟨value, evaluated, external⟩, form.record_of_import external⟩
  | short isOperation isThree given parsed isExpr occurs =>
    obtain ⟨operand, value, _, same, evaluated, form, _⟩ :=
      encodeLine_reference isOperation isThree given encodes
    cases parsed.symm.trans same
    rw [isExpr] at evaluated
    have external := Expr.external_of_mem imported occurs evaluated
    exact ⟨⟨value, evaluated, external⟩, form.record_of_import external⟩
  | word isWord given parsed occurs =>
    simp only [encodeLine, isWord] at encodes
    obtain ⟨text, value, field, same, evaluated, holds, _, _, rfl⟩ := encodeWord_cases encodes
    cases given.symm.trans same
    obtain ⟨_, sameExpr, evaluated⟩ := bind_eq_ok_iff.mp evaluated
    cases parsed.symm.trans sameExpr
    have external := Expr.external_of_mem imported occurs evaluated
    rw [addressField_import external] at holds
    cases holds
    exact ⟨⟨value, evaluated, external⟩, rfl⟩

/-- **The module has the record that the use of an import asks for.** -/
theorem Assembled.record_of_use (assembled : placement.Assembled object emitted)
    (isImport : name ∈ placement.imports) (isFree : placement.symbols.get? name = none)
    (member : line ∈ placement.lines)
    (uses : line.Uses (placement.offset line) name expr record) :
    (∃ value, placement.evalExpr expr line.address = .ok value ∧ value.external = some name) ∧
      record ∈ object.relocations := by
  rw [← assembled.lines] at member
  obtain ⟨emittedLine, inEmitted, rfl⟩ := List.mem_map.mp member
  obtain ⟨_, encodes⟩ := assembled.emits.encodes_mem emittedLine inEmitted
  obtain ⟨evaluated, isRecord⟩ := encodeLine_of_use isImport isFree uses encodes
  refine ⟨evaluated, ?_⟩
  rw [assembled.relocations]
  exact List.mem_filterMap.mpr ⟨emittedLine, inEmitted, isRecord⟩

/-- **The imports of a program are the names that its `EXTREF` lines list, and no line defines
one.** An import that no `EXTDEF` line lists is not a symbol of the program either; every operand
that contains it is then an offset from it and has a record with its name. An import that an
`EXTDEF` line lists is a symbol at address 0. -/
theorem ofSource_imports {source : String} (placed : ofSource source = .ok placement) :
    (∀ name, name ∈ placement.imports ↔ name ∈ placement.importedNames) ∧
      (∀ name ∈ placement.imports, name ∉ placement.definedNames ∧
        placement.symbols.get? name =
          if name ∈ placement.exportedNames then some ⟨name, 0, true, false⟩ else none) ∧
      ∀ object, placement.toObject = .ok object → ∀ name ∈ placement.imports,
        name ∉ placement.exportedNames → ∀ line ∈ placement.lines, ∀ expr record,
          line.Uses (placement.offset line) name expr record →
            (∃ value, placement.evalExpr expr line.address = .ok value ∧
              value.external = some name) ∧ record ∈ object.relocations := by
  refine ⟨fun name => mem_imports_iff placed, fun name isImport =>
    ⟨not_mem_definedNames placed isImport, get?_of_import placed isImport⟩, ?_⟩
  intro object made name isImport unlisted line member expr record uses
  obtain ⟨emitted, assembled⟩ := toObject_assembled placed made
  have isFree : placement.symbols.get? name = none := by
    rw [get?_of_import placed isImport, if_neg unlisted]
  exact assembled.record_of_use isImport isFree member uses

/-- A word one behind an import has a record. -/
theorem ofSource_imports_referring : ∃ placement object line,
    ofSource "P START 16\n EXTREF A\n WORD A+1\n END" = .ok placement ∧
      placement.toObject = .ok object ∧ placement.importedNames = ["A"] ∧
      placement.exportedNames = [] ∧ line ∈ placement.lines ∧
      line.Uses (placement.offset line) "A" ⟨"A+1", [⟨false, .symbol "A"⟩, ⟨false, .number 1⟩]⟩
        (.word 0 "A") ∧
      placement.symbols.get? "A" = none ∧ .word 0 "A" ∈ object.relocations := by
  obtain ⟨placement, placed, same⟩ := exists_ok_of_map
    (show ((ofSource "P START 16\n EXTREF A\n WORD A+1\n END").map fun placement =>
        (placement.importedNames, placement.exportedNames, placement.start,
          placement.lines[2]?, placement.toObject.toOption.isSome)).toOption =
      some (["A"], [], 16, some ⟨3, none, .directive .WORD, some "A+1", 16, 3⟩, true) by
      decide +kernel)
  simp only [Prod.mk.injEq] at same
  obtain ⟨imported, exported, start, third, encoded⟩ := same
  obtain ⟨object, made⟩ := exists_ok_of_isSome encoded
  obtain ⟨imports, free, recorded⟩ := ofSource_imports placed
  have isImport : "A" ∈ placement.imports := (imports "A").mpr (by rw [imported]; decide)
  have unlisted : "A" ∉ placement.exportedNames := by rw [exported]; decide
  have member := List.mem_of_getElem? third
  have uses : PlacedLine.Uses ⟨3, none, .directive .WORD, some "A+1", 16, 3⟩
      (placement.offset ⟨3, none, .directive .WORD, some "A+1", 16, 3⟩) "A"
      ⟨"A+1", [⟨false, .symbol "A"⟩, ⟨false, .number 1⟩]⟩ (.word 0 "A") := by
    rw [offset, start]
    exact .word rfl rfl (by rfl) (by decide)
  refine ⟨placement, object, _, placed, made, imported, exported, member, uses, ?_,
    (recorded object made "A" isImport unlisted _ member _ _ uses).2⟩
  rw [(free "A" isImport).2, if_neg unlisted]

/-- **A name that is both imported and exported is assembled as an address of the program.** The
word that uses it gets no record. -/
theorem ofSource_imports_exported : ∃ placement object line expr record,
    ofSource " EXTDEF A\n EXTREF A\n WORD A\n END" = .ok placement ∧
      placement.toObject = .ok object ∧ "A" ∈ placement.imports ∧
      placement.symbols.get? "A" = some ⟨"A", 0, true, false⟩ ∧ line ∈ placement.lines ∧
      line.Uses (placement.offset line) "A" expr record ∧
      placement.evalExpr expr line.address = .ok (.address 0) ∧ object.relocations = [] := by
  obtain ⟨placement, placed, same⟩ := exists_ok_of_map
    (show ((ofSource " EXTDEF A\n EXTREF A\n WORD A\n END").map fun placement =>
        (placement.imports, placement.symbols.get? "A", placement.lines[2]?,
          (placement.toObject.map Object.relocations).toOption)).toOption =
      some (["A"], some ⟨"A", 0, true, false⟩,
        some ⟨3, none, .directive .WORD, some "A", 0, 3⟩, some []) by
      decide +kernel)
  simp only [Prod.mk.injEq] at same
  obtain ⟨imports, symbol, third, encoded⟩ := same
  obtain ⟨object, made, records⟩ := exists_ok_of_map encoded
  refine ⟨placement, object, _, ⟨"A", [⟨false, .symbol "A"⟩]⟩, _, placed, made, ?_, symbol,
    List.mem_of_getElem? third, .word rfl rfl (by rfl) (by decide), ?_, records⟩
  · rw [imports]
    decide
  · simp only [evalExpr, Expr.eval, Expr.evalFrom, Term.value, Value.lookup, symbol]
    rfl

end Placement

end Sicxe
