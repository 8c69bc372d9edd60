import Sicxe.Proofs.Assembly.Layout
import Sicxe.Proofs.Symbol.Builder

/-!
# The statements of a placement

* `Statement.parse_cases`: where the parts of a statement come from.
* `Placement.origin_of_mem`: a line of a placement is a statement of the source or holds a literal.
* `Placement.mem_table_of_operation`: the operation of a line is one of the machine.
* `Placement.start_symbol`: a program whose `START` has a label exports that label at its start, and
  `Placement.name_of_start` says that the label is its name.
-/

namespace Sicxe

/-! ### Parts of a statement -/

/-- **A command that is an operation is an operation of the machine.** -/
theorem Command.mem_table_of_parse {word : List Char} {found : Operation} {extended : Bool}
    (parsed : Command.parse word = .ok (.operation found extended)) : found ∈ Operation.table := by
  unfold parse at parsed
  dsimp only at parsed
  split at parsed
  · split at parsed
    · cases parsed
    · cases parsed
  · split at parsed
    · cases parsed
    · rename_i other isOperation
      split at parsed
      · cases parsed
      · cases parsed
        exact List.mem_of_find?_eq_some isOperation

/-- A statement has an operand only if its command takes one, and always if it requires one. -/
def Statement.OperandFits (statement : Statement) : Prop :=
  (statement.command.takesOperand = false → statement.operand = none) ∧
    (statement.command.requiresOperand = true → statement.operand ≠ none)

theorem Statement.ofWords_cases {label : Option (List Char)} {command : List Char}
    {rest : List (List Char)} {statement : Statement}
    (succeeded : ofWords label command rest = .ok statement) :
    statement.label = label.map String.ofList ∧ Command.parse command = .ok statement.command ∧
      statement.OperandFits := by
  unfold ofWords at succeeded
  split at succeeded
  · cases succeeded
  · rename_i found parsed
    dsimp only at succeeded
    generalize given : (if found.takesOperand then rest.head? else none) = operand at succeeded
    split at succeeded
    · cases succeeded
    · rename_i complete
      cases succeeded
      refine ⟨rfl, parsed, fun without => ?_, fun required absent => complete ?_⟩
      · rw [if_neg (by simpa using without)] at given
        rw [← given]
        rfl
      · rw [Option.map_eq_none_iff.mp absent]
        simpa using required

/-- **A label is an identifier, and the command is a word of the line** with the operand that it
needs. -/
theorem Statement.parse_cases {text : String} {statement : Statement}
    (parsed : Statement.parse text = .ok (some statement)) :
    (∀ label, statement.label = some label → isIdentifier label.toList = true) ∧
      (∃ word, Command.parse word = .ok statement.command) ∧ statement.OperandFits := by
  unfold parse at parsed
  split at parsed
  · cases parsed
  · split at parsed
    · obtain ⟨_, made, same⟩ := map_eq_ok_iff.mp parsed
      cases same
      obtain ⟨isLabel, command, operand⟩ := ofWords_cases made
      refine ⟨fun label labelled => ?_, ⟨_, command⟩, operand⟩
      rw [isLabel] at labelled
      cases labelled
    · split at parsed
      · rename_i identifier
        split at parsed
        · cases parsed
        · obtain ⟨_, made, same⟩ := map_eq_ok_iff.mp parsed
          cases same
          obtain ⟨isLabel, command, operand⟩ := ofWords_cases made
          refine ⟨fun label labelled => ?_, ⟨_, command⟩, operand⟩
          rw [isLabel] at labelled
          cases labelled
          rw [String.toList_ofList]
          exact identifier
      · cases parsed

/-- A label is not empty. -/
theorem Statement.label_ne_empty {text : String} {statement : Statement} {label : String}
    (parsed : Statement.parse text = .ok (some statement))
    (labelled : statement.label = some label) : label ≠ "" := by
  rintro rfl
  have identifier := (parse_cases parsed).1 "" labelled
  cases identifier

/-! ### Lines and their statements -/

namespace LiteralPool

/-- The lines of flushed literals hold them. -/
theorem of_mem_flushEntries {counter : Nat} {entries : List (String × Option Nat)} :
    ∀ line ∈ (flushEntries counter entries).lines, ∃ text literal,
      Literal.parse text = .ok literal ∧ line = dataLine text line.address literal.size := by
  fun_induction flushEntries counter entries with
  | case1 => exact fun _ member => by cases member
  | case2 counter text address rest flushed ih => exact ih
  | case3 => exact fun _ member => by cases member
  | case4 counter text rest literal parsed flushed ih =>
    intro line member
    rcases List.mem_cons.mp member with rfl | member
    · exact ⟨text, literal, parsed, rfl⟩
    · exact ih line member

end LiteralPool

/-- A line is a statement of some numbered lines of source, or it holds a literal. -/
inductive PlacedLine.Origin (source : List (String × Nat)) : PlacedLine → Prop
  | statement {content : String} {line : Nat} {statement : Statement} (address size : Nat)
      (member : (content, line) ∈ source)
      (parsed : Statement.parse content = .ok (some statement)) :
      Origin source
        ⟨line, statement.label, statement.command, statement.operand, address, size⟩
  | literal {text : String} {literal : Literal} (address : Nat)
      (parsed : Literal.parse text = .ok literal) :
      Origin source (LiteralPool.dataLine text address literal.size)

/-- What every statement keeps of the name of the program. -/
structure Placing.Named (placing : Placing) : Prop where
  /-- The label of `START` is the name. -/
  labelled : ∀ placed ∈ placing.lines.toList, placed.command = .directive .START →
    ∀ label, placed.label = some label → placing.name = label ∧ label ≠ ""
  /-- The name is exported at the start. -/
  exported : placing.name ≠ "" → placing.symbols.find? placing.name =
    some ⟨⟨placing.name, UInt32.ofNat placing.start, true, false⟩, true⟩

namespace Placing

variable {placing next : Placing} {line : Nat} {first : Bool} {statement : Statement}

/-- A line of the program after a statement was there before, or it is the line of the statement,
or it holds a literal. -/
theorem Placed.mem_lines (fresh : first = true → placing = {})
    (placed : Placed placing line first statement next) {other : PlacedLine}
    (member : other ∈ next.lines.toList) :
    other ∈ placing.lines.toList ∨
      (∃ address size,
        other = ⟨line, statement.label, statement.command, statement.operand, address, size⟩) ∨
      ∃ text literal, Literal.parse text = .ok literal ∧
        other = LiteralPool.dataLine text other.address literal.size := by
  cases placed with
  | start _ isFirst =>
    cases fresh isFirst
    rw [lines_push, List.mem_append, List.mem_singleton] at member
    exact member.imp_right fun same => Or.inl ⟨_, _, same⟩
  | startNamed _ isFirst =>
    cases fresh isFirst
    rw [lines_push, List.mem_append, List.mem_singleton] at member
    exact member.imp_right fun same => Or.inl ⟨_, _, same⟩
  | reserve _ declaration =>
    rw [lines_push, declaration.keeps.2.2.2, List.mem_append, List.mem_singleton] at member
    exact member.imp_right fun same => Or.inl ⟨_, _, same⟩
  | flush _ declaration placed =>
    subst placed
    simp only [lines_pool, declaration.keeps.2.2.2, List.mem_append, List.mem_singleton] at member
    rcases member with (old | same) | pooled
    · exact Or.inl old
    · exact Or.inr (Or.inl ⟨_, _, same⟩)
    · exact Or.inr (Or.inr (LiteralPool.of_mem_flushEntries other pooled))

/-- A declaration keeps an exported definition as it is. -/
theorem Declared.keeps_exported {name : String} {address : UInt32} {absolute : Bool}
    (declared : Declared statement placing next)
    (exported : placing.symbols.find? name = some ⟨⟨name, address, true, absolute⟩, true⟩) :
    next.symbols.find? name = some ⟨⟨name, address, true, absolute⟩, true⟩ := by
  induction declared with
  | refl => exact exported
  | @define declared label _ _ _ _ _ _ defined ih =>
    obtain ⟨free, found⟩ := SymbolTable.Builder.find?_defineAs name defined
    rw [found, if_neg, ih]
    rintro rfl
    have taken := SymbolTable.Builder.isDefined_eq_true_iff.mpr ⟨_, ih, rfl⟩
    rw [taken] at free
    cases free
  | publish published _ _ ih =>
    rw [SymbolTable.Builder.find?_publish]
    split
    · rename_i same
      subst same
      rw [ih]
      rfl
    · exact ih
  | importName _ _ _ _ ih => exact ih
  | addLiteral _ _ ih => exact ih

/-- **A statement keeps the name of the program.** -/
theorem Placed.named {text : String} (fresh : first = true → placing = {}) (named : placing.Named)
    (parsed : Statement.parse text = .ok (some statement))
    (placed : Placed placing line first statement next) : next.Named := by
  have lines := fun other => @placed.mem_lines _ _ _ _ _ fresh other
  cases placed with
  | start isStart isFirst bounded unnamed =>
    cases fresh isFirst
    refine ⟨fun other member _ label labelled => ?_, fun nonempty => absurd rfl nonempty⟩
    rcases lines other member with old | ⟨_, _, rfl⟩ | ⟨_, _, _, isData⟩
    · cases old
    · cases unnamed.symm.trans labelled
    · rw [isData] at labelled
      cases labelled
  | @startNamed start label symbols isStart isFirst bounded isLabel defined =>
    cases fresh isFirst
    refine ⟨fun other member _ otherLabel labelled => ?_, fun nonempty => ?_⟩
    · rcases lines other member with old | ⟨_, _, rfl⟩ | ⟨_, _, _, isData⟩
      · cases old
      · exact ⟨Option.some.inj (isLabel.symm.trans labelled),
          Statement.label_ne_empty parsed labelled⟩
      · rw [isData] at labelled
        cases labelled
    · obtain ⟨middle, define, rfl⟩ := map_eq_ok_iff.mp defined
      obtain ⟨_, found⟩ := SymbolTable.Builder.find?_defineAs label define
      show (middle.publish label).find? label = _
      rw [SymbolTable.Builder.find?_publish, if_pos rfl, found, if_pos rfl]
      rfl
  | @reserve declared size isOther declaration sized bounded =>
    obtain ⟨name, start, _, _⟩ := declaration.keeps
    refine ⟨fun other member isStart label labelled => ?_, fun nonempty => ?_⟩
    · rcases lines other member with old | ⟨_, _, rfl⟩ | ⟨_, _, _, isData⟩
      · exact name ▸ named.labelled other old isStart label labelled
      · exact absurd isStart isOther
      · rw [isData] at labelled
        cases labelled
    · exact name ▸ start ▸ declaration.keeps_exported (named.exported (name ▸ nonempty))
  | @flush declared flushed isFlush declaration placed complete bounded =>
    obtain ⟨name, start, _, _⟩ := declaration.keeps
    refine ⟨fun other member isStart label labelled => ?_, fun nonempty => ?_⟩
    · rcases lines other member with old | ⟨_, _, rfl⟩ | ⟨_, _, _, isData⟩
      · exact name ▸ named.labelled other old isStart label labelled
      · rcases isFlush with command | command <;> cases command.symm.trans isStart
      · rw [isData] at labelled
        cases labelled
    · exact name ▸ start ▸ declaration.keeps_exported (named.exported (name ▸ nonempty))

/-- **A statement adds lines of its own and of literals only.** -/
theorem Placed.origin {source : List (String × Nat)} {content : String}
    (fresh : first = true → placing = {})
    (traced : ∀ other ∈ placing.lines.toList, other.Origin source)
    (member : (content, line) ∈ source)
    (parsed : Statement.parse content = .ok (some statement))
    (placed : Placed placing line first statement next) :
    ∀ other ∈ next.lines.toList, other.Origin source := by
  intro other inNext
  rcases placed.mem_lines fresh inNext with old | ⟨address, size, rfl⟩ | ⟨_, _, isLiteral, isData⟩
  · exact traced other old
  · exact .statement address size member parsed
  · rw [isData]
    exact .literal _ isLiteral

end Placing

namespace Placement

variable {source : String} {placement : Placement}

/-- A finished placement comes from a program that kept its name and its lines. -/
theorem ofSource_named (succeeded : ofSource source = .ok placement) :
    ∃ placing : Placing, (placing.Named ∧ ∀ line ∈ placing.lines.toList,
      line.Origin ((Text.stringLines source).zipIdx 1)) ∧
      placement = placing.finish (Text.stringLines source) :=
  ofSource_induction
    ⟨⟨fun _ member => (by cases member), fun nonempty => absurd rfl nonempty⟩,
      fun _ member => by cases member⟩
    (fun fresh holds member parsed placed =>
      have placed := Placing.place_cases placed
      ⟨placed.named fresh holds.1 parsed, placed.origin fresh holds.2 member parsed⟩) succeeded

/-- **A line of a placement is a statement of the source or holds a literal.** -/
theorem origin_of_mem (succeeded : ofSource source = .ok placement) {line : PlacedLine}
    (member : line ∈ placement.lines) : line.Origin ((Text.stringLines source).zipIdx 1) := by
  obtain ⟨placing, ⟨_, traced⟩, rfl⟩ := ofSource_named succeeded
  exact traced line member

/-- **The operation of a line is one of the machine.** -/
theorem mem_table_of_operation (succeeded : ofSource source = .ok placement) {line : PlacedLine}
    {found : Operation} {extended : Bool} (member : line ∈ placement.lines)
    (isOperation : line.command = .operation found extended) : found ∈ Operation.table := by
  cases origin_of_mem succeeded member with
  | statement _ _ _ parsed =>
    obtain ⟨_, ⟨word, command⟩, _⟩ := Statement.parse_cases parsed
    exact Command.mem_table_of_parse (command.trans (congrArg Except.ok isOperation))
  | literal => cases isOperation

/-- The label of `START` is the name of the program. -/
theorem name_of_start (succeeded : ofSource source = .ok placement) {line : PlacedLine}
    {label : String} (member : line ∈ placement.lines)
    (isStart : line.command = .directive .START) (labelled : line.label = some label) :
    placement.name = label ∧ label ≠ "" := by
  obtain ⟨placing, ⟨named, _⟩, rfl⟩ := ofSource_named succeeded
  exact named.labelled line member isStart label labelled

/-- **A program exports its name at its start.** -/
theorem start_symbol (succeeded : ofSource source = .ok placement)
    (nonempty : placement.name ≠ "") :
    placement.symbols.get? placement.name =
      some ⟨placement.name, UInt32.ofNat placement.start, true, false⟩ := by
  obtain ⟨placing, ⟨named, _⟩, rfl⟩ := ofSource_named succeeded
  show placing.symbols.build.get? placing.name = _
  rw [SymbolTable.Builder.get?_build, named.exported nonempty]
  rfl

end Placement

end Sicxe
