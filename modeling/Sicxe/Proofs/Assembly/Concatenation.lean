import Sicxe.Proofs.Assembly.Module

/-!
# The code as the concatenation of the lines

For every source that can be placed, the code of its module is made of its lines, each in its own
place.

* `StaysInside` says of a step that it is not refused for want of room, one lemma for each step of
  the encoding. `Placement.writeLine` is the only step that could be.
* `Emission.emit_staysInside`, `Emission.emitAll_inside`: nor are the lines of a placement, because
  every line fits in what was reserved for it and keeps the size of the code.
* `Placement.toObject_concatenation`: the code is the concatenation of the lines, each filled up
  with zeros to its size.
-/

namespace Sicxe

/-- Whether an error says that bytes do not fit in the program. -/
@[simp]
def AssemblyError.isOutside : AssemblyError → Bool
  | outsideProgram _ _ => true
  | _ => false

/-- A step that may be refused, but not for want of room. -/
def StaysInside {α : Type} : Except AssemblyError α → Prop
  | .ok _ => True
  | .error error => error.isOutside = false

/-! ### Refusals -/

section Steps

variable {α β : Type}

@[simp]
theorem staysInside_ok (result : α) : StaysInside (.ok result : Except AssemblyError α) :=
  trivial

@[simp]
theorem staysInside_pure (result : α) : StaysInside (pure result : Except AssemblyError α) :=
  trivial

@[simp]
theorem staysInside_error {error : AssemblyError} :
    StaysInside (.error error : Except AssemblyError α) ↔ error.isOutside = false :=
  Iff.rfl

/-- A composed step stays inside if both of its parts do. -/
theorem StaysInside.bind {first : Except AssemblyError α} {next : α → Except AssemblyError β}
    (inside : StaysInside first) (later : ∀ value, first = .ok value → StaysInside (next value)) :
    StaysInside (first >>= next) := by
  cases first with
  | ok value => exact later value rfl
  | error error => exact inside

/-- What a step is refused for is passed on. -/
theorem StaysInside.of_error {first : Except AssemblyError α} {error : AssemblyError}
    (inside : StaysInside first) (refused : first = .error error) :
    StaysInside (.error error : Except AssemblyError β) := by
  rw [refused] at inside
  exact inside

theorem StaysInside.map {first : Except AssemblyError α} (inside : StaysInside first)
    (change : α → β) : StaysInside (first.map change) := by
  cases first with
  | ok value => trivial
  | error error => exact inside

end Steps

theorem staysInside_readInteger (text : List Char) : StaysInside (readInteger text) := by
  unfold readInteger
  split <;> simp

theorem staysInside_readBytes (text : List Char) : StaysInside (readBytes text) := by
  unfold readBytes
  split <;> simp

theorem Term.staysInside_parse (text : List Char) : StaysInside (Term.parse text) := by
  unfold Term.parse
  split
  · trivial
  · split
    · exact (staysInside_readInteger text).map _
    · split <;> simp

theorem Expr.staysInside_readSummands (pieces : List (Bool × List Char)) :
    StaysInside (Expr.readSummands pieces) := by
  fun_induction Expr.readSummands pieces with
  | case1 => trivial
  | case2 negated piece rest error refused => exact (Term.staysInside_parse piece).of_error refused
  | case3 negated piece rest term parsed error refused ih => exact ih.of_error refused
  | case4 => trivial

theorem Expr.staysInside_parse (text : String) : StaysInside (Expr.parse text) := by
  unfold Expr.parse
  split
  · trivial
  · rename_i refused
    exact (Expr.staysInside_readSummands _).of_error refused

theorem Term.staysInside_value (here : Nat) (lookup : String → Option Value) (term : Term) :
    StaysInside (term.value here lookup) := by
  unfold Term.value
  split
  · trivial
  · trivial
  · split <;> simp

theorem Expr.staysInside_addTo (text : String) (sum : Value) (negated : Bool) (value : Value) :
    StaysInside (Expr.addTo text sum negated value) := by
  unfold Expr.addTo
  split
  · rfl
  · dsimp only
    split <;> split <;> simp

theorem Expr.staysInside_evalFrom (text : String) (here : Nat) (lookup : String → Option Value)
    (sum : Value) (summands : List Summand) :
    StaysInside (Expr.evalFrom text here lookup sum summands) := by
  fun_induction Expr.evalFrom text here lookup sum summands with
  | case1 => trivial
  | case2 sum negated term rest error refused =>
    exact (Term.staysInside_value here lookup term).of_error refused
  | case3 sum negated term rest value known error refused =>
    exact (Expr.staysInside_addTo text sum negated value).of_error refused
  | case4 sum negated term rest value known next added ih => exact ih

theorem Expr.staysInside_eval (expr : Expr) (here : Nat) (lookup : String → Option Value) :
    StaysInside (expr.eval here lookup) := by
  unfold Expr.eval
  split
  · split <;> simp
  · rename_i refused
    exact (Expr.staysInside_evalFrom _ _ _ _ _).of_error refused

theorem Literal.staysInside_parse (text : String) : StaysInside (Literal.parse text) := by
  unfold Literal.parse
  dsimp only
  split
  · exact (staysInside_readBytes _).map _
  · exact (staysInside_readInteger _).map _

theorem MemoryOperand.staysInside_parse (text : String) :
    StaysInside (MemoryOperand.parse text) := by
  unfold MemoryOperand.parse
  dsimp only
  split
  · rfl
  · split
    · split
      · rfl
      · exact (Literal.staysInside_parse _).map _
    · exact (Expr.staysInside_parse _).map _

theorem Value.staysInside_ofText (text : String) (here : Nat) (lookup : String → Option Value) :
    StaysInside (Value.ofText text here lookup) :=
  (Expr.staysInside_parse text).bind fun expr _ => expr.staysInside_eval here lookup

theorem PlacedLine.staysInside_getOperand (line : PlacedLine) : StaysInside line.getOperand := by
  unfold getOperand
  split <;> simp

namespace HalfBytes

theorem staysInside_readRegister (text : List Char) : StaysInside (readRegister text) := by
  unfold readRegister
  split <;> simp

theorem staysInside_readCount (text : List Char) (least greatest : Int) :
    StaysInside (readCount text least greatest) := by
  unfold readCount
  split
  · rename_i refused
    exact (staysInside_readInteger text).of_error refused
  · split <;> simp

theorem staysInside_splitPair (text : List Char) : StaysInside (splitPair text) := by
  unfold splitPair
  split <;> simp

theorem staysInside_parse (shape : OperandShape) (operand : String) :
    StaysInside (parse shape operand) := by
  cases shape with
  | register => exact (staysInside_readRegister _).bind fun _ _ => trivial
  | registerPair =>
    refine (staysInside_splitPair _).bind fun pair _ => ?_
    refine (staysInside_readRegister pair.1).bind fun _ _ => ?_
    exact (staysInside_readRegister pair.2).bind fun _ _ => trivial
  | registerCount =>
    refine (staysInside_splitPair _).bind fun pair _ => ?_
    refine (staysInside_readRegister pair.1).bind fun _ _ => ?_
    exact (staysInside_readCount pair.2 1 16).bind fun _ _ => trivial
  | count => exact (staysInside_readCount _ 0 15).bind fun _ _ => trivial
  | none => rfl
  | memory => rfl

end HalfBytes

namespace Placement

variable (placement : Placement) (base : Option UInt32) (line : PlacedLine)

theorem staysInside_addressField (text : String) (value : Value) :
    StaysInside (placement.addressField text value) := by
  unfold addressField
  split
  · trivial
  · split
    · trivial
    · split <;> simp

theorem staysInside_targetValue (target : Target) (here : Nat) :
    StaysInside (placement.targetValue target here) := by
  cases target with
  | literal text =>
    unfold targetValue
    dsimp only
    split <;> simp
  | expression expr => exact expr.staysInside_eval here _

theorem staysInside_encodeConstant (opcode : UInt8) (flags : Flags) (value : Int) :
    StaysInside (encodeConstant opcode flags value) := by
  unfold encodeConstant
  split <;> simp

theorem staysInside_encodeLocal (opcode : UInt8) (flags : Flags) (target : Int) :
    StaysInside (encodeLocal base line opcode flags target) := by
  unfold encodeLocal
  split
  · trivial
  · dsimp only
    split <;> simp

theorem staysInside_encodeReference (opcode : UInt8) (extended : Bool) (text : String) :
    StaysInside (placement.encodeReference base line opcode extended text) := by
  refine (MemoryOperand.staysInside_parse text).bind fun operand _ => ?_
  refine (placement.staysInside_targetValue operand.target line.address).bind fun value _ => ?_
  split
  · refine (placement.staysInside_addressField text value).bind fun field _ => ?_
    split <;> simp
  · split
    · unfold encodeImport
      split <;> simp
    · split
      · exact (staysInside_encodeConstant opcode _ _).bind fun _ _ => trivial
      · split
        · exact (staysInside_encodeLocal base line opcode _ _).bind fun _ _ => trivial
        · rfl

theorem staysInside_encodeOperation (found : Operation) (extended : Bool) :
    StaysInside (placement.encodeOperation base line found extended) := by
  unfold encodeOperation
  split
  · trivial
  · refine line.staysInside_getOperand.bind fun text _ => ?_
    exact (HalfBytes.staysInside_parse found.operand text).bind fun _ _ => trivial
  · split
    · trivial
    · exact placement.staysInside_encodeReference base line found.opcode extended _

theorem staysInside_encodeWord : StaysInside (placement.encodeWord line) := by
  refine line.staysInside_getOperand.bind fun text _ => ?_
  refine (Value.staysInside_ofText text line.address _).bind fun value _ => ?_
  refine (placement.staysInside_addressField text value).bind fun field _ => ?_
  split <;> simp

/-- **The encoding of a line is never refused for want of room.** -/
theorem staysInside_encodeLine : StaysInside (placement.encodeLine base line) := by
  unfold encodeLine
  split
  · exact (placement.staysInside_encodeOperation base line _ _).bind fun _ _ => trivial
  · refine line.staysInside_getOperand.bind fun text _ => ?_
    exact (staysInside_readBytes text.toList).bind fun _ _ => trivial
  · exact placement.staysInside_encodeWord line
  · trivial

theorem staysInside_localAddress (text : String) (here : Nat) :
    StaysInside (placement.localAddress text here) := by
  refine (Value.staysInside_ofText text here _).bind fun value _ => ?_
  split <;> simp

theorem staysInside_nextBase : StaysInside (placement.nextBase base line) := by
  unfold nextBase
  split
  · refine line.staysInside_getOperand.bind fun text _ => ?_
    exact (placement.staysInside_localAddress text line.address).bind fun _ _ => trivial
  · trivial
  · trivial

theorem staysInside_nextEntry (entry : UInt32) :
    StaysInside (placement.nextEntry entry line) := by
  unfold nextEntry
  split
  · exact placement.staysInside_localAddress _ line.address
  · trivial

/-! ### Writing -/

variable {placement : Placement} {base : Option UInt32} {line : PlacedLine}

/-- Bytes that end inside the code are written. -/
theorem staysInside_writeLine {code : Array UInt8} {bytes : List UInt8}
    (room : placement.offset line + bytes.length ≤ code.size) :
    StaysInside (placement.writeLine code line bytes) := by
  unfold writeLine
  dsimp only
  split
  · trivial
  · rw [if_neg (Nat.not_lt.mpr room)]
    trivial

end Placement

namespace Emission

variable {placement : Placement} {emission next : Emission} {line : PlacedLine}
variable {lines : List PlacedLine}

/-- A line of the layout is not refused for want of room. -/
theorem emit_staysInside (sized : line.Sized)
    (room : placement.offset line + line.size ≤ emission.code.size) :
    StaysInside (emission.emit placement line) := by
  refine (placement.staysInside_encodeLine emission.base line).bind fun encoded encodes => ?_
  refine (placement.staysInside_nextBase emission.base line).bind fun base _ => ?_
  refine (placement.staysInside_nextEntry line emission.entry).bind fun entry _ => ?_
  have fits := Placement.length_encodeLine_le sized encodes
  exact (Placement.staysInside_writeLine (by omega)).bind fun _ _ => trivial

/-- A line keeps the size of the code. -/
theorem size_emit (succeeded : emission.emit placement line = .ok next) :
    next.code.size = emission.code.size := by
  obtain ⟨encoded, _, _, _, _, code⟩ := emit_cases succeeded
  rw [code, Bytes.size_write]

/-- **No line of the layout is refused for want of room.** -/
theorem emitAll_inside {diagnostic : Diagnostic} (sized : ∀ line ∈ lines, line.Sized)
    (room : ∀ line ∈ lines, placement.offset line + line.size ≤ emission.code.size)
    (refused : emission.emitAll placement lines = .error diagnostic) :
    diagnostic.error.isOutside = false := by
  induction lines generalizing emission with
  | nil => cases refused
  | cons line rest ih =>
    unfold emitAll at refused
    split at refused
    · rename_i refusal
      cases refused
      have inside := emit_staysInside (sized line List.mem_cons_self) (room line List.mem_cons_self)
      rw [refusal] at inside
      exact inside
    · rename_i next succeeded
      refine ih (fun other member => sized other (List.mem_cons_of_mem _ member)) ?_ refused
      intro other member
      rw [size_emit succeeded]
      exact room other (List.mem_cons_of_mem _ member)

end Emission

/-! ### The code -/

namespace Placement

variable {source : String} {placement : Placement} {object : Object}

/-- **The module of a placement is not refused for want of room.** -/
theorem toObject_inside (placed : ofSource source = .ok placement) {diagnostic : Diagnostic}
    (refused : placement.toObject = .error diagnostic) : diagnostic.error.isOutside = false := by
  rw [toObject_eq] at refused
  cases refusal : placement.emptyEmission.emitAll placement placement.lines with
  | ok emission =>
    rw [refusal] at refused
    cases refused
  | error reason =>
    rw [refusal] at refused
    cases refused
    refine Emission.emitAll_inside (sized placed) ?_ refusal
    intro line member
    have bounds := (follows placed).bounds line member
    rw [emptyEmission, Array.size_replicate, offset]
    omega

/-- **The code is the concatenation of the lines.** No line begins before the start of the program,
the module is never refused for want of room, and its code is made of the encodings of the lines in
their order, each filled up with zeros to the size of its line. Directives without data are encoded
as nothing. -/
theorem toObject_concatenation (placed : ofSource source = .ok placement) :
    (∀ line ∈ placement.lines, placement.start ≤ line.address) ∧
      (∀ line offset size, placement.toObject ≠ .error ⟨line, .outsideProgram offset size⟩) ∧
      ∀ object, placement.toObject = .ok object →
        ∃ emitted, emitted.map EmittedLine.placed = placement.lines ∧
          placement.Emits none emitted ∧
          (∀ line ∈ emitted, line.Fits) ∧
          (∀ line ∈ emitted, line.placed.command.emits = false → line.encoded.bytes = []) ∧
          object.code.toList = emitted.flatMap EmittedLine.padded ∧
          object.code.size = placement.length := by
  refine ⟨?_, ?_, ?_⟩
  · intro line member
    exact ((follows placed).bounds line member).1
  · intro line offset size refused
    cases toObject_inside placed refused
  · intro object made
    obtain ⟨emitted, assembled⟩ := toObject_assembled placed made
    refine ⟨emitted, assembled.lines, assembled.emits, assembled.fits, ?_, assembled.code,
      assembled.length⟩
    intro line member silent
    obtain ⟨_, encodes⟩ := assembled.emits.encodes_mem line member
    rw [encodeLine_of_not_emits silent encodes]

/-- A constant, two reserved bytes and a word make up six bytes of code. -/
theorem toObject_concatenation_reserving : ∃ placement object emitted,
    ofSource " BYTE C'A'\n RESB 2\n WORD 7\n END" = .ok placement ∧
      placement.toObject = .ok object ∧ emitted.map EmittedLine.placed = placement.lines ∧
      placement.Emits none emitted ∧ object.code.toList = emitted.flatMap EmittedLine.padded ∧
      object.code = #[0x41, 0, 0, 0, 0, 7] := by
  obtain ⟨⟨placement, object⟩, assembled, code⟩ := exists_ok_of_map
    (show ((assemble " BYTE C'A'\n RESB 2\n WORD 7\n END").map
        fun result => result.2.code).toOption = some #[0x41, 0, 0, 0, 0, 7] by
      decide +kernel)
  obtain ⟨found, placed, assembled⟩ := bind_eq_ok_iff.mp assembled
  obtain ⟨_, made, same⟩ := bind_eq_ok_iff.mp assembled
  cases same
  obtain ⟨emitted, lines, emits, _, _, concatenated, _⟩ :=
    (toObject_concatenation placed).2.2 object made
  exact ⟨placement, object, emitted, placed, made, lines, emits, concatenated, code⟩

end Placement

end Sicxe
