import Sicxe.Proofs.Assembly.Extension
import Sicxe.Proofs.Assembly.Layout

/-!
# Operands that placing evaluates

The value of an operand is needed while statements are still being placed in two cases: an `EQU`
gives it to its label, and a reservation takes as many units as it says. It is found with the
symbols known so far, some of which are only exported or imported yet. This value is final.

* `Placing.PlacedAt`: the program before a line was placed, and what was left to do after it.
* `Placing.seenBy`: the program that the operand of a statement sees.
* `Placing.PlacedAt.evaluation`: a line has taken a value that its operand had there.
* `Placement.ofSource_evaluates`: **the finished placement gives the same value**, and nothing that
  was defined when it was found is changed by a later statement.
-/

namespace Sicxe

/-- Placing a line takes the value of its operand. -/
def PlacedLine.Evaluates (line : PlacedLine) : Prop :=
  line.command = .directive .EQU ∨ line.command = .directive .RESB ∨
    line.command = .directive .RESW

instance (line : PlacedLine) : Decidable line.Evaluates :=
  inferInstanceAs (Decidable (_ ∨ _ ∨ _))

/-- What a line has made of the value of its operand. -/
inductive PlacedLine.Takes (line : PlacedLine) (symbols : SymbolTable) (value : Value) : Prop
  /-- The label of an `EQU` has the value, a constant of 24 bits or an address of the program, in 32
  bits. -/
  | equal {label : String} {symbol : Symbol} (isEqual : line.command = .directive .EQU)
      (labelled : line.label = some label) (isLocal : value.isLocal = true)
      (inRange : value.isAbsolute = true → 0 ≤ value.constant ∧ value.constant ≤ 0xFFFFFF)
      (found : symbols.get? label = some symbol)
      (address : symbol.address = UInt32.ofInt value.constant)
      (absolute : symbol.absolute = value.isAbsolute) : Takes line symbols value
  /-- A `RESB` takes a constant number of bytes. -/
  | bytes (isBytes : line.command = .directive .RESB) (absolute : value.isAbsolute = true)
      (size : (line.size : Int) = value.constant) : Takes line symbols value
  /-- A `RESW` takes a constant number of words of three bytes. -/
  | words (isWords : line.command = .directive .RESW) (absolute : value.isAbsolute = true)
      (size : (line.size : Int) = value.constant * 3) : Takes line symbols value

theorem Value.external_of_isLocal {value : Value} (isLocal : value.isLocal = true) :
    value.external = none := by
  simp only [Value.isLocal, Bool.and_eq_true, Option.isNone_iff_eq_none] at isLocal
  exact isLocal.1

/-- Symbols that are worth the same have the same address and move alike. -/
theorem Value.ofSymbol_eq_iff {first second : Symbol} :
    ofSymbol first = ofSymbol second ↔
      first.address = second.address ∧ first.absolute = second.absolute := by
  unfold ofSymbol
  by_cases isConstant : first.absolute = true <;> by_cases isOther : second.absolute = true <;>
    simp [isConstant, isOther, absolute, address, UInt32.toNat_inj]

theorem LiteralPool.command_dataLine (literal : String) (address size : Nat) :
    (dataLine literal address size).command = .directive .BYTE ∨
      (dataLine literal address size).command = .directive .WORD := by
  unfold dataLine data
  dsimp only
  split
  · exact .inr rfl
  · exact .inl rfl

/-- Every definition of a builder is found elsewhere; only its export may be new. -/
def SymbolTable.Builder.KeptIn (builder : Builder) (find : String → Option Symbol) : Prop :=
  ∀ name symbol, builder.get? name = some symbol →
    ∃ exported, find name = some { symbol with exported }

/-- What is kept while a table grows is kept in the finished table. -/
theorem SymbolTable.Builder.KeptIn.build {builder later : Builder}
    (kept : builder.KeptIn later.get?) : builder.KeptIn later.build.get? := by
  intro name symbol known
  obtain ⟨exported, found⟩ := kept name symbol known
  exact ⟨exported, get?_build_of_get? found⟩

namespace Placing

variable {placing middle next : Placing} {line : PlacedLine} {number : Nat} {first : Bool}
variable {statement : Statement}

/-! ### Where a line was placed -/

/-- **What is known stays known.** -/
theorem Advances.extends {start pending : Pending} (advances : Advances start pending) :
    start.placing.Extends pending.placing := by
  induction advances with
  | refl => exact .refl _
  | blank _ _ ih => exact ih
  | place _ _ _ placed ih => exact ih.trans (place_cases placed).extends

/-- The statement of a line was placed, with the program before it and what was left after it. -/
inductive PlacedAt (start : Pending) (line : PlacedLine) : Placing → Pending → Prop
  | mk {before next : Placing} {first : Bool} {text : String} {rest : List (String × Nat)}
      {pool : List PlacedLine}
      (reached : Advances start ⟨before, first, (text, line.line) :: rest⟩)
      (parsed : Statement.parse text = .ok (some line.statement))
      (placed : before.place line.line first line.statement = .ok next)
      (added : next.lines.toList = before.lines.toList ++ line :: pool) :
      PlacedAt start line before ⟨next, false, rest⟩

/-- **Every line was placed on the way, but for those that hold literals.** -/
theorem Advances.placedAt {start pending : Pending} (advances : Advances start pending)
    (empty : start.placing.lines = #[]) (member : line ∈ pending.placing.lines.toList) :
    (∃ before after, PlacedAt start line before after ∧ Advances after pending) ∨
      line.command = .directive .BYTE ∨ line.command = .directive .WORD := by
  induction advances with
  | refl =>
    rw [empty] at member
    cases member
  | blank _ parsed ih =>
    refine (ih member).imp_left ?_
    rintro ⟨before, after, placedAt, advances⟩
    exact ⟨before, after, placedAt, advances.blank parsed⟩
  | @place before next first text number rest statement earlier parsed goesOn placed ih =>
    obtain ⟨address, size, pool, added, literals, _⟩ := (place_cases placed).lines_eq
    rw [added, List.mem_append, List.mem_cons] at member
    rcases member with old | rfl | pooled
    · refine (ih old).imp_left ?_
      rintro ⟨before, after, placedAt, advances⟩
      exact ⟨before, after, placedAt, advances.place parsed goesOn placed⟩
    · exact .inl ⟨before, _, .mk earlier parsed placed added, .refl⟩
    · obtain ⟨_, _, _, isData⟩ := literals line pooled
      rw [isData]
      exact .inr (LiteralPool.command_dataLine _ _ _)

/-! ### The value of the operand -/

theorem Extends.keptIn (extended : placing.Extends next) :
    placing.symbols.KeptIn next.symbols.get? := by
  intro name symbol known
  obtain ⟨later, found, same⟩ := extended.known name symbol known
  obtain ⟨address, absolute⟩ := Value.ofSymbol_eq_iff.mp same
  have names : later.name = symbol.name :=
    (SymbolTable.Builder.name_of_get? found).trans (SymbolTable.Builder.name_of_get? known).symm
  refine ⟨later.exported, found.trans (congrArg some ?_)⟩
  rw [← names, ← address, ← absolute]

theorem Extends.push (placing : Placing) (number : Nat) (statement : Statement) (size : Nat) :
    placing.Extends (placing.push number statement size) := by
  refine ⟨(Extends.refl placing).known, fun other member => ?_⟩
  rw [lines_push]
  exact List.mem_append_left _ member

/-- The line that a statement adds has the place and the size that the statement takes. -/
theorem eq_of_push {size : Nat} {pool : List PlacedLine} (same : middle.lines = placing.lines)
    (added : (middle.push number statement size).lines.toList =
      placing.lines.toList ++ line :: pool) :
    middle.counter = line.address ∧ line.size = size := by
  rw [lines_push, same] at added
  obtain ⟨rfl, _⟩ := List.cons.inj (List.append_cancel_left added)
  exact ⟨rfl, rfl⟩

/-- The program that the operand of a statement sees: the label is defined before it, but not that
of an `EQU`, which is to get the value. -/
def seenBy (placing : Placing) (statement : Statement) : Except AssemblyError Placing :=
  if statement.command = .directive .EQU then .ok placing else placing.defineLabel statement

/-- The operand of a line saw the program `seen` when the line was placed, and had a value without
an import, from which the line was made. -/
structure Evaluation (before : Placing) (line : PlacedLine) (after seen : Placing) (value : Value) :
    Prop where
  sees : before.seenBy line.statement = .ok seen
  here : seen.counter = line.address
  evaluated : seen.eval (line.operand.getD "") = .ok value
  isLocal : value.external = none
  kept : seen.Extends after
  taken : ∀ symbols : SymbolTable, after.symbols.KeptIn symbols.get? → line.Takes symbols value

theorem place_equal (isEqual : statement.command = .directive .EQU) :
    placing.place number first statement = placing.placeEqual number statement := by
  simp only [place, isEqual]

/-- An `EQU` sees the program before it and gives its label the value. -/
theorem evaluation_equal {pool : List PlacedLine} (isEqual : line.command = .directive .EQU)
    (placed : placing.place line.line first line.statement = .ok next)
    (added : next.lines.toList = placing.lines.toList ++ line :: pool) :
    ∃ seen value, Evaluation placing line next seen value := by
  have command : line.statement.command = .directive .EQU := isEqual
  have kept := (place_cases placed).extends
  rw [place_equal command] at placed
  obtain ⟨label, value, symbols, labelled, evaluated, isLocal, inRange, _, defined, rfl⟩ :=
    placeEqual_cases placed
  have same : Placing.lines { placing with symbols } = placing.lines := rfl
  obtain ⟨here, _⟩ := eq_of_push same added
  refine ⟨placing, value, if_pos command, here, evaluated, Value.external_of_isLocal isLocal, kept,
    fun table keeps => ?_⟩
  obtain ⟨exported, known⟩ := SymbolTable.Builder.get?_defined defined
  obtain ⟨exportedLater, found⟩ := keeps label _ known
  exact .equal isEqual labelled isLocal inRange found rfl rfl

/-- A reservation sees its own label and takes as many units as the value says. -/
theorem evaluation_reserve {unit : Nat} {pool : List PlacedLine}
    (notEqual : line.command ≠ .directive .EQU)
    (reserved : placing.placeReserve line.line line.statement unit = .ok next)
    (added : next.lines.toList = placing.lines.toList ++ line :: pool)
    (takes : ∀ (symbols : SymbolTable) (value : Value), value.isAbsolute = true →
      (line.size : Int) = value.constant * unit → line.Takes symbols value) :
    ∃ seen value, Evaluation placing line next seen value := by
  obtain ⟨labelled, count, define, evaluated, isConstant, least, reserved⟩ :=
    placeReserve_cases reserved
  obtain ⟨_, rfl⟩ := checkCounter_eq_ok_iff.mp reserved
  obtain ⟨here, size⟩ := eq_of_push (defineLabel_declared define).keeps.2.2.2 added
  have isLocal : count.external = none := by
    simp only [Value.isAbsolute, Bool.and_eq_true, Option.isNone_iff_eq_none] at isConstant
    exact isConstant.2
  refine ⟨labelled, count, (if_neg notEqual).trans define, here, evaluated, isLocal,
    .push labelled _ _ _, fun table _ => takes table count isConstant ?_⟩
  rw [size, Int.natCast_mul, Int.toNat_of_nonneg least]

/-- **A line that takes the value of its operand has one when it is placed.** -/
theorem PlacedAt.evaluation {start after : Pending} {before : Placing}
    (placedAt : PlacedAt start line before after) (evaluates : line.Evaluates) :
    ∃ seen value, Evaluation before line after.placing seen value := by
  obtain ⟨_, _, placed, added⟩ := placedAt
  rcases evaluates with isEqual | isBytes | isWords
  · exact evaluation_equal isEqual placed added
  · have command : line.statement.command = .directive .RESB := isBytes
    simp only [place, command] at placed
    refine evaluation_reserve (by simp [isBytes]) placed added fun _ _ absolute size => ?_
    exact .bytes isBytes absolute (by simpa using size)
  · have command : line.statement.command = .directive .RESW := isWords
    simp only [place, command] at placed
    refine evaluation_reserve (by simp [isWords]) placed added fun _ _ absolute size => ?_
    exact .words isWords absolute size

/-- A line that takes the value of its operand is not the `END`, so placing goes on behind it. -/
theorem PlacedAt.advances {start after : Pending} {before : Placing}
    (placedAt : PlacedAt start line before after) (evaluates : line.Evaluates) :
    Advances start after := by
  obtain ⟨reached, parsed, placed, _⟩ := placedAt
  refine reached.place parsed ?_ placed
  show line.command ≠ .directive .END
  rcases evaluates with command | command | command <;> simp [command]

end Placing

namespace Placement

open Placing

variable {source : String} {placement : Placement} {line : PlacedLine}

/-- A finished placement is one that placing comes to from the empty program, and behind each of the
programs on the way as well. -/
theorem extends_of_advances {pending : Pending} (succeeded : ofSource source = .ok placement)
    (advances : Advances (.ofSource source) pending) :
    ∃ final : Placing, pending.placing.Extends final ∧
      placement = final.finish (Text.stringLines source) := by
  obtain ⟨final, placed, finished⟩ := ofSource_placeLines succeeded
  have rest : pending.placing.placeLines pending.first pending.lines = .ok (some final) :=
    advances.placeLines_eq.symm.trans placed
  obtain ⟨last, _, _, _, _, _, later, _, _, ended⟩ := placeLines_eq_ok_iff.mp rest
  exact ⟨final, later.extends.trans (place_cases ended).extends, finished⟩

/-- Every line that takes the value of its operand was placed on the way. -/
theorem exists_placedAt (succeeded : ofSource source = .ok placement)
    (member : line ∈ placement.lines) (evaluates : line.Evaluates) :
    ∃ before after, PlacedAt (.ofSource source) line before after := by
  obtain ⟨final, placed, rfl⟩ := ofSource_placeLines succeeded
  obtain ⟨last, _, _, _, _, statement, advances, _, isEnd, ended⟩ := placeLines_eq_ok_iff.mp placed
  have isData : ¬ (line.command = .directive .BYTE ∨ line.command = .directive .WORD) := by
    rcases evaluates with command | command | command <;> simp [command]
  rcases (place_cases ended).of_mem_lines member with
    old | ⟨_, rfl, _⟩ | ⟨text, address, size, rfl⟩
  · obtain ⟨before, after, placedAt, _⟩ := (advances.placedAt rfl old).resolve_right isData
    exact ⟨before, after, placedAt⟩
  · have isEnd : line.command = .directive .END := isEnd
    rcases evaluates with command | command | command <;> cases command.symm.trans isEnd
  · exact absurd (LiteralPool.command_dataLine text address size) isData

/-- The finished placement gives an operand the value that it had when its line was placed. -/
theorem evaluation_of_placedAt {before : Placing} {after : Pending}
    (succeeded : ofSource source = .ok placement) (evaluates : line.Evaluates)
    (placedAt : PlacedAt (.ofSource source) line before after) :
    ∃ seen value, Evaluation before line after.placing seen value ∧
      placement.eval (line.operand.getD "") line.address = .ok value ∧
      line.Takes placement.symbols value ∧ seen.symbols.KeptIn placement.symbols.get? := by
  obtain ⟨seen, value, evaluation⟩ := placedAt.evaluation evaluates
  obtain ⟨final, extended, rfl⟩ := extends_of_advances succeeded (placedAt.advances evaluates)
  have kept : seen.Extends final := evaluation.kept.trans extended
  refine ⟨seen, value, evaluation, ?_, evaluation.taken _ extended.keptIn.build, kept.keptIn.build⟩
  rw [← evaluation.here]
  exact kept.eval evaluation.evaluated evaluation.isLocal

/-- Every line that takes the value of its operand was made from its value in the finished
placement. -/
theorem exists_value (succeeded : ofSource source = .ok placement)
    (member : line ∈ placement.lines) (evaluates : line.Evaluates) :
    ∃ value, placement.eval (line.operand.getD "") line.address = .ok value ∧
      line.Takes placement.symbols value := by
  obtain ⟨before, after, placedAt⟩ := exists_placedAt succeeded member evaluates
  obtain ⟨_, value, _, evaluated, taken, _⟩ := evaluation_of_placedAt succeeded evaluates placedAt
  exact ⟨value, evaluated, taken⟩

/-- **The values that placing takes from operands are final.** Every `EQU`, `RESB` and `RESW` line
was placed on the way to the finished placement. When it was, its operand had a value, seen from the
symbols and imports known so far at the address of the line. In the finished placement the operand
has the same value at this address. From it come the symbol of the label of an `EQU` and the size of
a reservation: so many bytes, or three times as many. What was defined then has the same address in
every later program and in the finished placement, and is a constant there exactly if it was one; at
most it has been exported. -/
theorem ofSource_evaluates (succeeded : ofSource source = .ok placement)
    (member : line ∈ placement.lines) (evaluates : line.Evaluates) :
    (∃ before after, PlacedAt (.ofSource source) line before after) ∧
      ∀ before after, PlacedAt (.ofSource source) line before after →
        ∃ seen value, before.seenBy line.statement = .ok seen ∧ seen.counter = line.address ∧
          seen.eval (line.operand.getD "") = .ok value ∧
          placement.eval (line.operand.getD "") line.address = .ok value ∧
          line.Takes placement.symbols value ∧
          (∀ later, Advances after later → seen.symbols.KeptIn later.placing.symbols.get?) ∧
          seen.symbols.KeptIn placement.symbols.get? := by
  refine ⟨exists_placedAt succeeded member evaluates, fun before after placedAt => ?_⟩
  obtain ⟨seen, value, evaluation, finished, taken, kept⟩ :=
    evaluation_of_placedAt succeeded evaluates placedAt
  exact ⟨seen, value, evaluation.sees, evaluation.here, evaluation.evaluated, finished, taken,
    fun later advances => (evaluation.kept.trans advances.extends).keptIn, kept⟩

/-- A program that reserves what its constants say. One of them is exported before it is defined,
and another one is a difference of addresses. -/
def reservingSource : String :=
  "P START 16\n EXTDEF COUNT,BUFFER\n EXTREF OTHER\nCOUNT EQU 4\nBUFFER RESB COUNT+1\n" ++
  "LENGTH EQU *-BUFFER\nTABLE RESW LENGTH-COUNT\nLIMIT EQU *\n END\n"

theorem ofSource_evaluates_reservingSource :
    ∃ placement, ofSource reservingSource = .ok placement ∧
      (placement.lines.filter fun line => line.Evaluates).map PlacedLine.size = [0, 5, 0, 3, 0] ∧
      ∀ line ∈ placement.lines, line.Evaluates → ∃ before after seen value,
        PlacedAt (.ofSource reservingSource) line before after ∧
          before.seenBy line.statement = .ok seen ∧
          seen.eval (line.operand.getD "") = .ok value ∧
          placement.eval (line.operand.getD "") line.address = .ok value ∧
          line.Takes placement.symbols value := by
  obtain ⟨placement, placed, sizes⟩ : ∃ placement, ofSource reservingSource = .ok placement ∧
      (placement.lines.filter fun line => line.Evaluates).map PlacedLine.size =
        [0, 5, 0, 3, 0] :=
    exists_ok_of_map (by decide +kernel)
  refine ⟨placement, placed, sizes, fun line member evaluates => ?_⟩
  obtain ⟨⟨before, after, placedAt⟩, same⟩ := ofSource_evaluates placed member evaluates
  obtain ⟨seen, value, sees, _, evaluated, finished, taken, _⟩ := same before after placedAt
  exact ⟨before, after, seen, value, placedAt, sees, evaluated, finished, taken⟩

end Placement

end Sicxe
