import Sicxe.Proofs.Assembly.Concatenation
import Sicxe.Proofs.Assembly.Grammar
import Sicxe.Proofs.Assembly.Literals

/-!
# The signs of literals

The number of a literal may have two signs, one in front of the mark of its radix and one behind it,
as `=--5` and `=0x-5` have. The line of a literal is encoded from the same text as an expression, and
there a sign ends a term. Both readers take a number whose only sign is in front.

* `Expr.parse_ofList_iff`: an integer is an expression exactly if no sign stands behind its first
  character.
* `LiteralPool.encodeLine_number`, `LiteralPool.not_encodeLine_number`: what becomes of the line of a
  literal in either case.
* `Emission.exists_refused`: an assembly that fails is refused at one of its lines.
* `Literal.encodes_number`: **a literal whose number is a word can be encoded exactly if it is signed
  once**, and no program is refused at another literal.
-/

namespace Sicxe

/-! ### Integers as expressions -/

theorem unsigned_cons_iff {c : Char} {rest : List Char} :
    Unsigned (c :: rest) ↔ (c ≠ '+' ∧ c ≠ '-') ∧ Unsigned rest :=
  List.forall_mem_cons

namespace Expr

open Numeral

variable {text : List Char} {negated : Bool} {value number : Int}

theorem pieces_ne_nil (negated : Bool) (text : List Char) : pieces negated text ≠ [] := by
  cases text with
  | nil => simp [pieces]
  | cons c rest =>
    unfold pieces
    split
    · simp
    · split
      · simp
      · split <;> simp

/-- **A text that is one piece has no sign.** -/
theorem unsigned_of_pieces {piece : Bool × List Char}
    (single : pieces negated text = [piece]) : Unsigned text := by
  rcases unsigned_or_sign text with unsigned | ⟨front, following, rest, unsigned, rfl⟩
  · exact unsigned
  · rw [pieces_append unsigned] at single
    exact absurd (List.cons.inj single).2 (pieces_ne_nil _ _)

/-- Every piece is a summand. -/
theorem length_readSummands {parts : List (Bool × List Char)} {summands : List Summand}
    (parsed : readSummands parts = .ok summands) : summands.length = parts.length := by
  induction parts generalizing summands with
  | nil =>
    cases parsed
    rfl
  | cons part rest ih =>
    obtain ⟨_, later, _, isLater, rfl⟩ := readSummands_cons_iff.mp parsed
    rw [List.length_cons, List.length_cons, ih isLater]

/-- A number without signs is one term. -/
theorem readSummands_of_marked? (read : marked? text = some number) (unsigned : Unsigned text) :
    readSummands (pieces negated text) = .ok [⟨negated, .number number⟩] := by
  obtain ⟨number, spelled, fits, rfl⟩ := (marked?_eq_some_iff unsigned).mp read
  exact readSummands_pieces_iff.mpr (.last (.number spelled fits))

/-- The sign in front of an integer is the one in front of the first piece. -/
theorem signedPieces_of_prefixed? (read : prefixed? text = some value) :
    ∃ negated behind number, signedPieces text = pieces negated behind ∧
      marked? behind = some number ∧ (Unsigned behind ↔ Unsigned text.tail) := by
  cases text with
  | nil => cases read
  | cons c rest =>
    by_cases isMinus : c = '-'
    · subst isMinus
      obtain ⟨number, behind, _⟩ := Option.map_eq_some_iff.mp read
      exact ⟨true, rest, number, rfl, (Option.filter_eq_some_iff.mp behind).1, Iff.rfl⟩
    · have whole : marked? (c :: rest) = some value := by
        rw [← prefixed?_of_ne_minus (by simpa using isMinus), read]
      by_cases isPlus : c = '+'
      · subst isPlus
        have isDecimal : integer? 10 ('+' :: rest) = some value := whole
        obtain ⟨digits, same | same | same, isDigits⟩ := integer?_cases isDecimal
        · subst same
          exact absurd rfl (ne_sign_of_isSome (isDigits '+' List.mem_cons_self)).1
        · cases same
        · cases same
          rw [marked?_plus isDigits] at whole
          exact ⟨false, rest, value, rfl, whole, Iff.rfl⟩
      · refine ⟨false, c :: rest, value, ?_, whole, ?_⟩
        · simp [signedPieces, isMinus, isPlus]
        · rw [unsigned_cons_iff, List.tail_cons]
          simp [isMinus, isPlus]

/-- **An integer is an expression exactly if no sign stands behind its first character.** -/
theorem parse_ofList_iff (read : readInteger text = .ok value) :
    (∃ expr, parse (String.ofList text) = .ok expr) ↔ Unsigned text.tail := by
  obtain ⟨negated, behind, number, isPieces, isNumber, same⟩ :=
    signedPieces_of_prefixed? (readInteger_eq_ok_iff.mp read)
  rw [← same]
  constructor
  · rintro ⟨expr, parsed⟩
    obtain ⟨_, _, single, _⟩ := summands_of_readInteger read parsed
    unfold parse at parsed
    rw [String.toList_ofList, isPieces] at parsed
    split at parsed
    · rename_i summands isSum
      cases parsed
      have length := length_readSummands isSum
      rw [show summands = _ from single] at length
      obtain ⟨piece, isSingle⟩ := List.length_eq_one_iff.mp length.symm
      exact unsigned_of_pieces isSingle
    · cases parsed
  · intro unsigned
    rw [parse, String.toList_ofList, isPieces, readSummands_of_marked? isNumber unsigned]
    exact ⟨_, rfl⟩

/-- A single number has its value. -/
theorem eval_single {expr : Expr} (single : expr.summands = [⟨negated, .number number⟩])
    (fits : inRange (if negated then -number else number) = true) (here : Nat)
    (lookup : String → Option Value) :
    expr.eval here lookup = .ok (.absolute (if negated then -number else number)) := by
  cases negated <;> simp_all [eval, evalFrom, Term.value, addTo, Value.absolute]

end Expr

/-- No sign stands behind the first character of a literal. -/
def Literal.SignedOnce (text : String) : Prop :=
  Unsigned (Literal.body text.toList).tail

instance (text : String) : Decidable (Literal.SignedOnce text) :=
  List.decidableBAll (fun c => c ≠ '+' ∧ c ≠ '-') _

/-! ### The lines of literals -/

namespace LiteralPool

variable {text : String} {value : Int}

/-- The line of a number is a `WORD` with the text of the number. -/
theorem dataLine_number (isNumber : Literal.parse text = .ok (.word value)) (address size : Nat) :
    dataLine text address size =
      ⟨0, none, .directive .WORD, some (String.ofList (Literal.body text.toList)), address, size⟩ := by
  rw [dataLine, data, isNumber]

/-- The line of a byte constant is a `BYTE` with the text of the constant. -/
theorem dataLine_bytes {content : List UInt8} (isBytes : Literal.parse text = .ok (.bytes content))
    (address size : Nat) :
    dataLine text address size =
      ⟨0, none, .directive .BYTE, some (String.ofList (Literal.body text.toList)), address, size⟩ := by
  rw [dataLine, data, isBytes]

theorem readInteger_number (isNumber : Literal.parse text = .ok (.word value)) :
    readInteger (Literal.body text.toList) = .ok value := by
  rcases Literal.parse_cases isNumber with ⟨_, impossible, _⟩ | ⟨_, same, read⟩
  · cases impossible
  · cases same
    exact read

/-- **A number that is signed once is an expression of the same value.** -/
theorem eval_number (isNumber : Literal.parse text = .ok (.word value))
    (fits : Expr.inRange value = true) (once : Literal.SignedOnce text) :
    ∃ expr, Expr.parse (String.ofList (Literal.body text.toList)) = .ok expr ∧
      ∀ here lookup, expr.eval here lookup = .ok (.absolute value) := by
  have read := readInteger_number isNumber
  obtain ⟨expr, parsed⟩ := (Expr.parse_ofList_iff read).mpr once
  obtain ⟨negated, number, single, rfl⟩ := Expr.summands_of_readInteger read parsed
  exact ⟨expr, parsed, Expr.eval_single single fits⟩

theorem inRange_of_word (least : -0x800000 ≤ value) (greatest : value ≤ 0xFFFFFF) :
    Expr.inRange value = true := by
  simp only [Expr.inRange, Bool.and_eq_true, decide_eq_true_eq]
  omega

/-- The line of a number that is signed once is encoded as the low 24 bits of the number. -/
theorem encodeLine_number (isNumber : Literal.parse text = .ok (.word value))
    (least : -0x800000 ≤ value) (greatest : value ≤ 0xFFFFFF) (once : Literal.SignedOnce text)
    (placement : Placement) (base : Option UInt32) (address : Nat) :
    placement.encodeLine base (dataLine text address 3) =
      .ok ⟨Bytes.ofNat 3 (value % 0x1000000).toNat, none⟩ := by
  obtain ⟨expr, parsed, evaluated⟩ :=
    eval_number isNumber (inRange_of_word least greatest) once
  have isValue : placement.eval (String.ofList (Literal.body text.toList)) address =
      .ok (.absolute value) :=
    bind_eq_ok_iff.mpr ⟨expr, parsed, evaluated _ _⟩
  have isField : placement.addressField (String.ofList (Literal.body text.toList))
      (.absolute value) = .ok ⟨value, none⟩ := by
    simp [Placement.addressField, Value.absolute]
  rw [dataLine_number isNumber]
  refine bind_eq_ok_iff.mpr ⟨_, rfl, bind_eq_ok_iff.mpr ⟨_, isValue,
    bind_eq_ok_iff.mpr ⟨_, isField, ?_⟩⟩⟩
  rw [if_pos ⟨least, greatest⟩]
  rfl

/-- **A number with a second sign is no expression**, and its line is refused for that. -/
theorem not_encodeLine_number (isNumber : Literal.parse text = .ok (.word value))
    (twice : ¬ Literal.SignedOnce text) :
    ∃ error, Expr.parse (String.ofList (Literal.body text.toList)) = .error error ∧
      ∀ (placement : Placement) (base : Option UInt32) (address : Nat),
        placement.encodeLine base (dataLine text address 3) = .error error := by
  cases parsed : Expr.parse (String.ofList (Literal.body text.toList)) with
  | ok expr =>
    exact absurd ((Expr.parse_ofList_iff (readInteger_number isNumber)).mp ⟨expr, parsed⟩) twice
  | error error =>
    refine ⟨error, rfl, fun placement base address => ?_⟩
    rw [dataLine_number isNumber]
    exact bind_eq_error_iff.mpr (.inr ⟨_, rfl,
      bind_eq_error_iff.mpr (.inl (bind_eq_error_iff.mpr (.inl parsed)))⟩)

/-- The line of a byte constant is encoded as its bytes. -/
theorem encodeLine_bytes {content : List UInt8} (isBytes : Literal.parse text = .ok (.bytes content))
    (placement : Placement) (base : Option UInt32) (address : Nat) :
    placement.encodeLine base (dataLine text address content.length) = .ok ⟨content, none⟩ := by
  rcases Literal.parse_cases isBytes with ⟨_, same, read⟩ | ⟨_, impossible, _⟩
  · cases same
    rw [dataLine_bytes isBytes]
    refine bind_eq_ok_iff.mpr ⟨_, rfl, bind_eq_ok_iff.mpr ⟨content, ?_, rfl⟩⟩
    rw [String.toList_ofList, read]
  · cases impossible

end LiteralPool

/-! ### Programs that are refused -/

namespace Emission

variable {placement : Placement} {emission : Emission} {line : PlacedLine}
variable {lines : List PlacedLine}

/-- **An assembly that fails is refused at one of its lines**, with the error of that line. -/
theorem exists_refused {diagnostic : Diagnostic}
    (refused : emission.emitAll placement lines = .error diagnostic) :
    ∃ line ∈ lines, line.line = diagnostic.line ∧
      ∃ middle : Emission, middle.emit placement line = .error diagnostic.error := by
  induction lines generalizing emission with
  | nil => cases refused
  | cons line rest ih =>
    unfold emitAll at refused
    split at refused
    · rename_i refusal
      cases refused
      exact ⟨line, List.mem_cons_self, rfl, emission, refusal⟩
    · obtain ⟨other, member, found⟩ := ih refused
      exact ⟨other, List.mem_cons_of_mem _ member, found⟩

/-- A line of data is refused for what it is encoded from or for want of room. -/
theorem encodeLine_of_refused {error : AssemblyError}
    (isData : line.command = .directive .WORD ∨ line.command = .directive .BYTE)
    (refused : emission.emit placement line = .error error) (inside : error.isOutside = false) :
    placement.encodeLine emission.base line = .error error := by
  have noBase : placement.nextBase emission.base line = .ok emission.base := by
    rcases isData with isData | isData <;> rw [Placement.nextBase, isData]
  have noEntry : placement.nextEntry emission.entry line = .ok emission.entry := by
    rcases isData with isData | isData <;> rw [Placement.nextEntry, isData]
  obtain refusal | ⟨encoded, _, refused⟩ := bind_eq_error_iff.mp refused
  · exact refusal
  · rw [noBase] at refused
    obtain impossible | ⟨_, _, refused⟩ := bind_eq_error_iff.mp refused
    · cases impossible
    · rw [noEntry] at refused
      obtain impossible | ⟨_, _, refused⟩ := bind_eq_error_iff.mp refused
      · cases impossible
      · obtain noRoom | ⟨_, _, impossible⟩ := bind_eq_error_iff.mp refused
        · unfold Placement.writeLine at noRoom
          dsimp only at noRoom
          split at noRoom
          · cases noRoom
          · split at noRoom
            · cases noRoom
              cases inside
            · cases noRoom
        · cases impossible

end Emission

namespace Placement

variable {source : String} {placement : Placement} {entry : String × Nat} {value : Int}

/-- **A program that is refused at a generated line has a number that is no word or that is signed
twice.** -/
theorem exists_literal_of_refused {error : AssemblyError} (placed : ofSource source = .ok placement)
    (refused : placement.toObject = .error ⟨0, error⟩) :
    ∃ entry ∈ placement.literals, ∃ value, Literal.parse entry.1 = .ok (.word value) ∧
      ¬ (-0x800000 ≤ value ∧ value ≤ 0xFFFFFF ∧ Literal.SignedOnce entry.1) := by
  have inside := toObject_inside placed refused
  rw [toObject_eq] at refused
  have refusal : placement.emptyEmission.emitAll placement placement.lines = .error ⟨0, error⟩ := by
    cases emitted : placement.emptyEmission.emitAll placement placement.lines with
    | ok emission =>
      rw [emitted] at refused
      cases refused
    | error diagnostic =>
      rw [emitted] at refused
      cases refused
      rfl
  obtain ⟨line, member, isLine, middle, refusal⟩ := Emission.exists_refused refusal
  have generated : line.isGenerated = true := by
    rw [PlacedLine.isGenerated, isLine]
    rfl
  obtain ⟨entry, isEntry, literal, parsed, rfl⟩ :=
    exists_of_forall₂ (literalsPlaced placed).generated line (List.mem_filter.mpr ⟨member, generated⟩)
  cases literal with
  | bytes content =>
    have isData := congrArg PlacedLine.command
      (LiteralPool.dataLine_bytes parsed entry.2 (Literal.bytes content).size)
    have refusal := Emission.encodeLine_of_refused (.inr isData) refusal inside
    cases refusal.symm.trans (LiteralPool.encodeLine_bytes parsed placement middle.base entry.2)
  | word value =>
    refine ⟨entry, isEntry, value, parsed, ?_⟩
    rintro ⟨least, greatest, once⟩
    have isData := congrArg PlacedLine.command (LiteralPool.dataLine_number parsed entry.2 3)
    have refusal := Emission.encodeLine_of_refused (.inl isData) refusal inside
    cases refusal.symm.trans
      (LiteralPool.encodeLine_number parsed least greatest once placement middle.base entry.2)

/-- A program with a number that is signed twice is refused. -/
theorem refused_of_literal (placed : ofSource source = .ok placement)
    (member : entry ∈ placement.literals) (isNumber : Literal.parse entry.1 = .ok (.word value))
    (twice : ¬ Literal.SignedOnce entry.1) : ∃ diagnostic, placement.toObject = .error diagnostic := by
  cases made : placement.toObject with
  | error diagnostic => exact ⟨diagnostic, rfl⟩
  | ok object =>
    obtain ⟨line, isLine, literal, parsed, rfl⟩ :=
      exists_of_forall₂ (literalsPlaced placed).generated.flip entry member
    cases parsed.symm.trans isNumber
    obtain ⟨emitted, assembled⟩ := toObject_assembled placed made
    rw [← assembled.lines] at isLine
    obtain ⟨line, inEmitted, isLine⟩ := List.mem_map.mp (List.mem_filter.mp isLine).1
    obtain ⟨base, encodes⟩ := assembled.emits.encodes_mem line inEmitted
    obtain ⟨error, _, refused⟩ := LiteralPool.not_encodeLine_number isNumber twice
    rw [isLine] at encodes
    cases encodes.symm.trans (refused placement base entry.2)

end Placement

/-- **The number of a literal.** A literal whose number is a word has the line of a `WORD`. If it is
signed once, the operand of that line is an expression with the value of the number, and the line is
encoded as its low 24 bits; if it is signed twice, the operand is no expression, the line is refused
and so is every program with the literal. A program that is refused at a generated line has a
literal whose number is no word or is signed twice. -/
theorem Literal.encodes_number {text : String} {value : Int}
    (isNumber : Literal.parse text = .ok (.word value)) (least : -0x800000 ≤ value)
    (greatest : value ≤ 0xFFFFFF) :
    (∃ operand, LiteralPool.data text = (.WORD, operand) ∧
        (SignedOnce text →
          (∃ expr, Expr.parse operand = .ok expr ∧
            ∀ here lookup, expr.eval here lookup = .ok (.absolute value)) ∧
          ∀ (placement : Placement) (base : Option UInt32) (address : Nat),
            placement.encodeLine base (LiteralPool.dataLine text address 3) =
              .ok ⟨Bytes.ofNat 3 (value % 0x1000000).toNat, none⟩) ∧
        (¬ SignedOnce text → ∃ error, Expr.parse operand = .error error ∧
          ∀ (placement : Placement) (base : Option UInt32) (address : Nat),
            placement.encodeLine base (LiteralPool.dataLine text address 3) = .error error)) ∧
      ∀ source placement, Placement.ofSource source = .ok placement →
        (∀ error, placement.toObject = .error ⟨0, error⟩ →
          ∃ entry ∈ placement.literals, ∃ number, Literal.parse entry.1 = .ok (.word number) ∧
            ¬ (-0x800000 ≤ number ∧ number ≤ 0xFFFFFF ∧ SignedOnce entry.1)) ∧
        ∀ address, (text, address) ∈ placement.literals → ¬ SignedOnce text →
          ∃ diagnostic, placement.toObject = .error diagnostic := by
  constructor
  · refine ⟨_, by rw [LiteralPool.data, isNumber], fun once => ⟨?_, ?_⟩, fun twice => ?_⟩
    · exact LiteralPool.eval_number isNumber (LiteralPool.inRange_of_word least greatest) once
    · exact LiteralPool.encodeLine_number isNumber least greatest once
    · exact LiteralPool.not_encodeLine_number isNumber twice
  · intro source placement placed
    refine ⟨fun error refused => ?_, fun address member twice => ?_⟩
    · exact Placement.exists_literal_of_refused placed refused
    · exact Placement.refused_of_literal placed member isNumber twice

/-- A negative number is encoded as its low 24 bits. A program with two signs in the second of its
literals is refused at a generated line. -/
theorem Literal.encodes_number_negative :
    (∃ expr, Expr.parse "-0x10" = .ok expr ∧
        ∀ here lookup, expr.eval here lookup = .ok (.absolute (-16))) ∧
      (∀ (placement : Placement) (base : Option UInt32) (address : Nat),
        placement.encodeLine base (LiteralPool.dataLine "=-0x10" address 3) =
          .ok ⟨[0xFF, 0xFF, 0xF0], none⟩) ∧
      ∃ placement error, Placement.ofSource " LDA =1\n LDX =0x-5\n END" = .ok placement ∧
        placement.toObject = .error ⟨0, error⟩ ∧
        ∃ entry ∈ placement.literals, ∃ value, Literal.parse entry.1 = .ok (.word value) ∧
          ¬ (-0x800000 ≤ value ∧ value ≤ 0xFFFFFF ∧ SignedOnce entry.1) := by
  have isNumber : Literal.parse "=-0x10" = .ok (.word (-16)) := ok_of_toOption (by decide +kernel)
  have isOperand : LiteralPool.data "=-0x10" = (.WORD, "-0x10") := by decide +kernel
  obtain ⟨⟨operand, isData, once, _⟩, programs⟩ :=
    encodes_number isNumber (by decide) (by decide)
  cases isData.symm.trans isOperand
  obtain ⟨evaluates, encodes⟩ := once (by decide +kernel)
  refine ⟨evaluates, encodes, ?_⟩
  obtain ⟨placement, placed, refusal⟩ := exists_ok_of_map
    (show ((Placement.ofSource " LDA =1\n LDX =0x-5\n END").map fun placement =>
        failure? placement.toObject).toOption =
      some (some ⟨0, .unreadable "0x" .number⟩) by
        decide +kernel)
  have refused := error_of_failure? refusal
  exact ⟨placement, _, placed, refused, (programs _ placement placed).1 _ refused⟩

/-- **A literal with two signs is a number and cannot be encoded.** The program is placed with three
bytes for it, and then it is refused. -/
theorem Literal.encodes_number_doubleSign :
    Literal.parse "=--5" = .ok (.word 5) ∧ LiteralPool.data "=--5" = (.WORD, "--5") ∧
      Expr.parse "--5" = .error (.unreadable "" .expression) ∧
      ∃ placement, Placement.ofSource " LDA =--5\n END" = .ok placement ∧
        placement.literals = [("=--5", 3)] ∧ placement.length = 6 ∧
        placement.toObject = .error ⟨0, .unreadable "" .expression⟩ := by
  refine ⟨ok_of_toOption (by decide +kernel), by decide +kernel,
    error_of_failure? (by decide +kernel), ?_⟩
  obtain ⟨placement, placed, parts⟩ := exists_ok_of_map
    (show ((Placement.ofSource " LDA =--5\n END").map fun placement =>
        (placement.literals, placement.length, failure? placement.toObject)).toOption =
      some ([("=--5", 3)], 6, some ⟨0, .unreadable "" .expression⟩) by
        decide +kernel)
  simp only [Prod.mk.injEq] at parts
  obtain ⟨literals, length, refusal⟩ := parts
  exact ⟨placement, placed, literals, length, error_of_failure? refusal⟩

end Sicxe
