import Sicxe.Proofs.Assembly.Moved.Placement

/-!
# The module of a moved program

A program with a name can be moved by another address at its `START` line. `assemble_moved` says
what becomes of its module: the code and the records stay, and the addresses of its symbols move
along.

* `Placement.Moved.encodeLine`: a line of the moved program has the same encoding.
* `Placement.Moved.emits`: so have all its lines, since the base address moves along.
-/

namespace Sicxe

variable {distance : Int}

namespace Placement

/-- A base address and the base address in a program moved by `distance`. -/
def BaseMoved (distance : Int) : Option UInt32 → Option UInt32 → Prop :=
  Option.Rel fun base moved => Shifted distance base.toNat moved.toNat

/-- A value and the same value in a program moved by `distance`. It does not mix an import with
addresses of the program. -/
def ValueMoved (distance : Int) (value moved : Value) : Prop :=
  moved = value.moved distance ∧ (value.external = none ∨ value.relative = 0)

/-- Literals that are placed alike have related addresses. -/
theorem lookup_forall₂ {entries others : List (String × Nat)}
    (related : List.Forall₂ (fun entry other =>
      other.1 = entry.1 ∧ Shifted distance entry.2 other.2) entries others) (literal : String) :
    Option.Rel (Shifted distance) (entries.lookup literal) (others.lookup literal) := by
  induction related with
  | nil => exact .none
  | @cons entry other _ _ pair _ ih =>
    rw [List.lookup_cons, List.lookup_cons, pair.1]
    split
    · exact .some pair.2
    · exact ih

namespace Moved

variable {placement moved : Placement} {line lineMoved : PlacedLine}
variable {base baseMoved : Option UInt32} {here there : Nat} {value : Value}

/-! ### Values -/

theorem get? (related : placement.Moved distance moved) (name : String) :
    Option.Rel (Symbol.Moved distance) (placement.symbols.get? name) (moved.symbols.get? name) :=
  find?_forall₂ (fun _ _ pair => by rw [pair.name]) related.symbols

theorem evalExpr (related : placement.Moved distance moved) (shifted : Shifted distance here there)
    (expr : Expr) :
    Related (ValueMoved distance) (placement.evalExpr expr here) (moved.evalExpr expr there) := by
  intro value other evaluated evaluatedMoved
  unfold Placement.evalExpr at evaluatedMoved
  rw [related.imports] at evaluatedMoved
  exact ⟨Expr.eval_moved (Value.lookup_moved related.get? _) shifted evaluated evaluatedMoved,
    (Expr.eval_eq_ok_iff.mp evaluated).2⟩

theorem eval (related : placement.Moved distance moved) (shifted : Shifted distance here there)
    (text : String) :
    Related (ValueMoved distance) (placement.eval text here) (moved.eval text there) := by
  refine (Related.same (Expr.parse text)).bind ?_
  rintro expr _ rfl
  exact related.evalExpr shifted expr

theorem targetValue (related : placement.Moved distance moved)
    (shifted : Shifted distance here there) (target : Target) :
    Related (ValueMoved distance) (placement.targetValue target here)
      (moved.targetValue target there) := by
  cases target with
  | expression expr => exact related.evalExpr shifted expr
  | literal literal =>
    have found := lookup_forall₂ related.literals literal
    simp only [Placement.targetValue, literalAddress?]
    generalize placement.literals.lookup literal = address,
      moved.literals.lookup literal = other at found ⊢
    cases found with
    | none => exact .error_left
    | some pair =>
      refine .ok ⟨?_, Or.inl rfl⟩
      unfold Shifted at pair
      simp only [Value.address, Value.moved, Int.one_mul, pair]

/-! ### Fields -/

theorem offset (related : placement.Moved distance moved) (pair : line.Moved distance lineMoved) :
    moved.offset lineMoved = placement.offset line := by
  have start := related.start
  have address := pair.address
  unfold Shifted at start address
  unfold Placement.offset
  omega

/-- **The field of an address is the same in the moved program**, since it is the distance from the
start. -/
theorem addressField (related : placement.Moved distance moved) (named : placement.name ≠ "")
    (unmixed : value.external = none ∨ value.relative = 0) (text : String) :
    moved.addressField text (value.moved distance) = placement.addressField text value := by
  have start := related.start
  unfold Shifted at start
  unfold Placement.addressField
  rw [related.name]
  obtain ⟨constant, relative, external⟩ := value
  cases external with
  | some symbol =>
    have fixed : relative = 0 := unmixed.resolve_left (by simp)
    rw [Value.moved_of_relative fixed]
  | none =>
    by_cases moves : relative = 1
    · -- The start moves by as much as the address.
      have same : constant + distance - (moved.start : Int) = constant - placement.start := by
        omega
      simp only [Value.moved, moves, Int.one_mul, ne_eq, named, not_false_eq_true, and_self,
        if_true, same]
    · by_cases fixed : relative = 0
      · rw [Value.moved_of_relative fixed]
        simp only [moves, false_and, if_false]
      · simp only [Value.moved, moves, fixed, false_and, if_false, or_self]

theorem getOperand (pair : line.Moved distance lineMoved)
    (notStart : line.command ≠ .directive .START) :
    Related (· = ·) line.getOperand lineMoved.getOperand := by
  have same : lineMoved.getOperand = line.getOperand := by
    unfold PlacedLine.getOperand
    rw [pair.operand notStart, pair.command]
  rw [same]
  exact .same _

/-! ### Lines -/

/-- The distance from the base stays. -/
theorem baseDistance? (bases : BaseMoved distance base baseMoved) (target : Int) :
    Placement.baseDistance? baseMoved (target + distance) =
      Placement.baseDistance? base target := by
  cases bases with
  | none => rfl
  | @some address other pair =>
    unfold Shifted at pair
    have same : target + distance - (other.toNat : Int) = target - address.toNat := by omega
    simp only [Placement.baseDistance?, same]

theorem encodeLocal (pair : line.Moved distance lineMoved)
    (bases : BaseMoved distance base baseMoved) (opcode : UInt8) (flags : Flags) (target : Int) :
    Related (· = ·) (Placement.encodeLocal base line opcode flags target)
      (Placement.encodeLocal baseMoved lineMoved opcode flags (target + distance)) := by
  have address := pair.address
  unfold Shifted at address
  have same : target + distance - ((lineMoved.address + 3 : Nat) : Int) =
      target - (line.address + 3 : Nat) := by omega
  unfold Placement.encodeLocal
  rw [baseDistance? bases]
  split
  · exact .ok rfl
  · dsimp only
    rw [same]
    split
    · exact .ok rfl
    · exact .error_left

theorem encodeReference (related : placement.Moved distance moved) (named : placement.name ≠ "")
    (pair : line.Moved distance lineMoved) (bases : BaseMoved distance base baseMoved)
    (opcode : UInt8) (extended : Bool) (text : String) :
    Related (· = ·) (placement.encodeReference base line opcode extended text)
      (moved.encodeReference baseMoved lineMoved opcode extended text) := by
  refine (Related.same (MemoryOperand.parse text)).bind ?_
  rintro operand _ rfl
  refine (related.targetValue pair.address operand.target).bind ?_
  rintro value _ ⟨rfl, unmixed⟩
  split
  · unfold encodeExtended
    rw [related.addressField named unmixed, related.offset pair]
    exact .same _
  · obtain ⟨constant, relative, external⟩ := value
    cases external with
    | some symbol =>
      have fixed : relative = 0 := unmixed.resolve_left (by simp)
      rw [Value.moved_of_relative fixed]
      dsimp only
      unfold encodeImport
      rw [related.offset pair]
      exact .same _
    | none =>
      by_cases fixed : relative = 0
      · rw [Value.moved_of_relative fixed]
        simp only [fixed, if_true]
        exact .same _
      · by_cases moves : relative = 1
        · simp only [Value.moved, moves, Int.one_mul, if_true]
          exact (encodeLocal pair bases _ _ constant).bind fun _ _ same => .ok (by rw [same])
        · simp only [fixed, moves, if_false]
          exact .error_left

theorem encodeOperation {found : Operation} {extended : Bool}
    (related : placement.Moved distance moved) (named : placement.name ≠ "")
    (pair : line.Moved distance lineMoved) (bases : BaseMoved distance base baseMoved)
    (isOperation : line.command = .operation found extended) :
    Related (· = ·) (placement.encodeOperation base line found extended)
      (moved.encodeOperation baseMoved lineMoved found extended) := by
  have notStart : line.command ≠ .directive .START := by
    rw [isOperation]
    exact nofun
  unfold Placement.encodeOperation
  split
  · exact .ok rfl
  · refine (getOperand pair notStart).bind ?_
    rintro text _ rfl
    exact .same _
  · rw [pair.operand notStart]
    split
    · exact .ok rfl
    · exact related.encodeReference named pair bases _ _ _

theorem encodeWord (related : placement.Moved distance moved) (named : placement.name ≠ "")
    (pair : line.Moved distance lineMoved) (isWord : line.command = .directive .WORD) :
    Related (· = ·) (placement.encodeWord line) (moved.encodeWord lineMoved) := by
  refine (getOperand pair (by rw [isWord]; decide)).bind ?_
  rintro text _ rfl
  refine (related.eval pair.address text).bind ?_
  rintro value _ ⟨rfl, unmixed⟩
  rw [related.addressField named unmixed, related.offset pair]
  exact .same _

/-- **A line of the moved program has the same encoding.** -/
theorem encodeLine (related : placement.Moved distance moved) (named : placement.name ≠ "")
    (pair : line.Moved distance lineMoved) (bases : BaseMoved distance base baseMoved) :
    Related (· = ·) (placement.encodeLine base line) (moved.encodeLine baseMoved lineMoved) := by
  unfold Placement.encodeLine
  rw [pair.command]
  split
  · rename_i isOperation
    refine (related.encodeOperation named pair bases isOperation).bind ?_
    rintro encoded _ rfl
    exact .same _
  · rename_i isBytes
    refine (getOperand pair (by rw [isBytes]; decide)).bind ?_
    rintro text _ rfl
    exact .same _
  · rename_i isWord
    exact related.encodeWord named pair isWord
  · exact .ok rfl

/-- The address of an operand of 32 bits moves along. -/
theorem localAddress (related : placement.Moved distance moved)
    (shifted : Shifted distance here there) {text : String}
    (known : ∀ value, placement.eval text here = .ok value →
      value.external = none ∧ value.relative = 1 ∧ value.Fits)
    (knownMoved : ∀ value, moved.eval text there = .ok value →
      value.external = none ∧ value.relative = 1 ∧ value.Fits) :
    Related (fun address other => Shifted distance address.toNat other.toNat)
      (placement.localAddress text here) (moved.localAddress text there) := by
  refine (related.eval shifted text).remember.bind ?_
  rintro value _ ⟨⟨rfl, _⟩, evaluated, evaluatedMoved⟩
  obtain ⟨_, moves, fits⟩ := known value evaluated
  obtain ⟨_, _, fitsMoved⟩ := knownMoved _ evaluatedMoved
  have sameKind : (value.moved distance).isLocal = value.isLocal := rfl
  rw [sameKind]
  split
  · exact .ok (Value.shifted_of_fits moves fits fitsMoved)
  · exact .error_left

/-- **The base address moves along**, since `BASE` gives an address of the program. -/
theorem nextBase (related : placement.Moved distance moved) (movable : placement.Movable)
    (movableMoved : moved.Movable) (member : line ∈ placement.lines)
    (memberMoved : lineMoved ∈ moved.lines) (pair : line.Moved distance lineMoved)
    (bases : BaseMoved distance base baseMoved) :
    Related (BaseMoved distance) (placement.nextBase base line)
      (moved.nextBase baseMoved lineMoved) := by
  unfold Placement.nextBase
  rw [pair.command]
  split
  · rename_i isBase
    refine (getOperand pair (by rw [isBase]; decide)).remember.bind ?_
    rintro text _ ⟨rfl, given, givenMoved⟩
    have known := movable.base line member isBase
    have knownMoved := movableMoved.base lineMoved memberMoved (pair.command.trans isBase)
    rw [getOperand_eq_ok_iff.mp given] at known
    rw [getOperand_eq_ok_iff.mp givenMoved] at knownMoved
    exact (related.localAddress pair.address known knownMoved).bind fun _ _ shifted =>
      .ok (.some shifted)
  · exact .ok .none
  · exact .ok bases

end Moved

end Placement

/-! ### Modules -/

/-- Lines with the same encodings and sizes. -/
def EmittedLine.Alike (line other : EmittedLine) : Prop :=
  other.encoded = line.encoded ∧ other.placed.size = line.placed.size

namespace EmittedLine

variable {emitted others : List EmittedLine}

theorem flatMap_padded_alike (alike : List.Forall₂ Alike emitted others) :
    others.flatMap padded = emitted.flatMap padded := by
  induction alike with
  | nil => rfl
  | cons pair _ ih =>
    rw [List.flatMap_cons, List.flatMap_cons, ih, padded, padded, pair.1, pair.2]

theorem records_alike (alike : List.Forall₂ Alike emitted others) :
    records others = records emitted := by
  induction alike with
  | nil => rfl
  | cons pair _ ih => rw [records_cons, records_cons, ih, pair.1]

end EmittedLine

namespace Placement

variable {placement moved : Placement} {base baseMoved : Option UInt32}
variable {emitted emittedMoved : List EmittedLine}

/-- **The lines of the moved program have the same encodings.** -/
theorem Moved.emits (related : placement.Moved distance moved) (named : placement.name ≠ "")
    (movable : placement.Movable) (movableMoved : moved.Movable)
    (bases : BaseMoved distance base baseMoved)
    (pairs : List.Forall₂ (PlacedLine.Moved distance) (emitted.map EmittedLine.placed)
      (emittedMoved.map EmittedLine.placed))
    (own : ∀ line ∈ emitted, line.placed ∈ placement.lines)
    (ownMoved : ∀ line ∈ emittedMoved, line.placed ∈ moved.lines)
    (emits : placement.Emits base emitted) (emitsMoved : moved.Emits baseMoved emittedMoved) :
    List.Forall₂ EmittedLine.Alike emitted emittedMoved := by
  induction emits generalizing baseMoved emittedMoved with
  | nil =>
    cases emitsMoved with
    | nil => exact .nil
    | cons => cases pairs
  | @cons base next line encoded rest encodes based _ ih =>
    cases emitsMoved with
    | nil => cases pairs
    | @cons _ nextMoved lineMoved encodedMoved restMoved encodesMoved basedMoved laterMoved =>
      rw [List.map_cons, List.map_cons, List.forall₂_cons] at pairs
      obtain ⟨pair, pairs⟩ := pairs
      have same : encoded = encodedMoved :=
        related.encodeLine named pair bases _ _ encodes encodesMoved
      have nextBases : BaseMoved distance next nextMoved :=
        related.nextBase movable movableMoved (own _ List.mem_cons_self)
          (ownMoved _ List.mem_cons_self) pair bases _ _ based basedMoved
      exact .cons ⟨same.symm, pair.size⟩ (ih nextBases pairs
        (fun other member => own other (List.mem_cons_of_mem _ member))
        (fun other member => ownMoved other (List.mem_cons_of_mem _ member)) laterMoved)

/-- **The module of the moved program has the same code and the same records.** -/
theorem Moved.assembled {object objectMoved : Object} (related : placement.Moved distance moved)
    (named : placement.name ≠ "") (movable : placement.Movable) (movableMoved : moved.Movable)
    (assembled : placement.Assembled object emitted)
    (assembledMoved : moved.Assembled objectMoved emittedMoved) :
    objectMoved.code = object.code ∧ objectMoved.relocations = object.relocations := by
  have pairs : List.Forall₂ (PlacedLine.Moved distance) (emitted.map EmittedLine.placed)
      (emittedMoved.map EmittedLine.placed) := by
    rw [assembled.lines, assembledMoved.lines]
    exact related.lines
  have own : ∀ line ∈ emitted, line.placed ∈ placement.lines := by
    intro line member
    rw [← assembled.lines]
    exact List.mem_map_of_mem member
  have ownMoved : ∀ line ∈ emittedMoved, line.placed ∈ moved.lines := by
    intro line member
    rw [← assembledMoved.lines]
    exact List.mem_map_of_mem member
  have alike := related.emits named movable movableMoved .none pairs own ownMoved assembled.emits
    assembledMoved.emits
  constructor
  · refine Array.toList_inj.mp ?_
    rw [assembled.code, assembledMoved.code, EmittedLine.flatMap_padded_alike alike]
  · rw [assembled.relocations, assembledMoved.relocations, EmittedLine.records_alike alike]

end Placement

/-- **The code of a program with a name does not depend on its `START` address.** Two sources are
the same but for the operand of `START` in their first line, and both can be moved. Then their
modules have the same code and the same records, and the same symbols, whose constants agree and
whose addresses differ as the operands of `START` do. -/
theorem assemble_moved {source sourceMoved head headMoved label operand operandMoved : String}
    {rest : List String} {placement placementMoved : Placement} {object objectMoved : Object}
    (lines : Text.stringLines source = head :: rest)
    (linesMoved : Text.stringLines sourceMoved = headMoved :: rest)
    (parsed : Statement.parse head = .ok (some ⟨some label, .directive .START, some operand⟩))
    (parsedMoved : Statement.parse headMoved =
      .ok (some ⟨some label, .directive .START, some operandMoved⟩))
    (assembled : assemble source = .ok (placement, object))
    (assembledMoved : assemble sourceMoved = .ok (placementMoved, objectMoved))
    (movable : placement.Movable) (movableMoved : placementMoved.Movable) :
    ∃ start startMoved : Int, readInteger operand.toList = .ok start ∧
      readInteger operandMoved.toList = .ok startMoved ∧
      objectMoved.code = object.code ∧ objectMoved.relocations = object.relocations ∧
      List.Forall₂ (Symbol.Moved (startMoved - start)) object.symbols.symbols
        objectMoved.symbols.symbols := by
  obtain ⟨placed, emitted, made⟩ := assemble_assembled assembled
  obtain ⟨placedMoved, emittedMoved, madeMoved⟩ := assemble_assembled assembledMoved
  obtain ⟨start, startMoved, read, readMoved, related⟩ :=
    Placement.ofSource_moved lines linesMoved parsed parsedMoved placed placedMoved movable
      movableMoved
  obtain ⟨code, relocations⟩ := related.assembled
    (Placement.name_of_started lines parsed placed) movable movableMoved made madeMoved
  refine ⟨start, startMoved, read, readMoved, code, relocations, ?_⟩
  rw [made.symbols, madeMoved.symbols]
  exact related.symbols

/-- A program at the addresses 16 and 4096. Its references count from the base and hold addresses,
and its symbols are addresses and a constant. -/
theorem assemble_moved_program : ∃ placement placementMoved object objectMoved,
    assemble "P START 16\n BASE X\nL LDA X\n +LDA L\nX WORD L\nK EQU X-L\n END" =
        .ok (placement, object) ∧
      assemble "P START 0x1000\n BASE X\nL LDA X\n +LDA L\nX WORD L\nK EQU X-L\n END" =
        .ok (placementMoved, objectMoved) ∧
      placement.Movable ∧ placementMoved.Movable ∧
      object.code = #[3, 0x40, 0, 3, 0x10, 0, 0, 0, 0, 0] ∧ objectMoved.code = object.code ∧
      objectMoved.relocations = object.relocations ∧
      List.Forall₂ (Symbol.Moved 4080) object.symbols.symbols objectMoved.symbols.symbols := by
  obtain ⟨⟨placement, object⟩, assembled, same⟩ := exists_ok_of_map
    (show ((assemble "P START 16\n BASE X\nL LDA X\n +LDA L\nX WORD L\nK EQU X-L\n END").map
        fun result => (decide result.1.Movable, result.2.code)).toOption =
      some (true, #[3, 0x40, 0, 3, 0x10, 0, 0, 0, 0, 0]) by
      decide +kernel)
  obtain ⟨⟨placementMoved, objectMoved⟩, assembledMoved, sameMoved⟩ := exists_ok_of_map
    (show ((assemble
        "P START 0x1000\n BASE X\nL LDA X\n +LDA L\nX WORD L\nK EQU X-L\n END").map
        fun result => decide result.1.Movable).toOption = some true by
      decide +kernel)
  simp only [Prod.mk.injEq, decide_eq_true_eq] at same sameMoved
  obtain ⟨movable, code⟩ := same
  have lines : Text.stringLines
      "P START 16\n BASE X\nL LDA X\n +LDA L\nX WORD L\nK EQU X-L\n END" =
      "P START 16" :: [" BASE X", "L LDA X", " +LDA L", "X WORD L", "K EQU X-L", " END"] := by
    decide +kernel
  have linesMoved : Text.stringLines
      "P START 0x1000\n BASE X\nL LDA X\n +LDA L\nX WORD L\nK EQU X-L\n END" =
      "P START 0x1000" :: [" BASE X", "L LDA X", " +LDA L", "X WORD L", "K EQU X-L", " END"] := by
    decide +kernel
  have parsed : Statement.parse "P START 16" =
      .ok (some ⟨some "P", .directive .START, some "16"⟩) := ok_of_toOption (by decide +kernel)
  have parsedMoved : Statement.parse "P START 0x1000" =
      .ok (some ⟨some "P", .directive .START, some "0x1000"⟩) :=
    ok_of_toOption (by decide +kernel)
  obtain ⟨start, startMoved, read, readMoved, sameCode, sameRecords, symbols⟩ :=
    assemble_moved lines linesMoved parsed parsedMoved assembled assembledMoved movable sameMoved
  have isStart : readInteger "16".toList = .ok 16 := ok_of_toOption (by decide +kernel)
  have isStartMoved : readInteger "0x1000".toList = .ok 0x1000 :=
    ok_of_toOption (by decide +kernel)
  cases isStart.symm.trans read
  cases isStartMoved.symm.trans readMoved
  exact ⟨placement, placementMoved, object, objectMoved, assembled, assembledMoved, movable,
    sameMoved, code, sameCode, sameRecords, symbols⟩

end Sicxe
