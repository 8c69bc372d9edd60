import Sicxe.Assembly.Encoding
import Sicxe.Proofs.Assembly.Statements
import Sicxe.Proofs.Text.Numeral

/-!
# The words of literals

The number of a literal is read by `readInteger`, and the line that holds the literal has the same
text as the operand of a `WORD`, which is read as an expression. Some texts have a meaning to the
first reader only, such as a sign behind the mark of the radix; none is an expression with a symbol.

* `Expr.summands_of_readInteger`: an expression that is also an integer is a single number, and
  `Expr.eval_of_readInteger` says that both readers give it the same value.
* `LiteralPool.encodeLine_dataLine`: the line that holds a literal is encoded as the bytes of the
  literal, without a record.
-/

namespace Sicxe

/-! ### Numerals -/

namespace Numeral

variable {radix start number : Nat} {text : List Char} {value : Int}

theorem isSome_of_accumulate? (read : accumulate? radix start text = some number) :
    ∀ c ∈ text, (digitValue? radix c).isSome = true := by
  induction text generalizing start with
  | nil => exact fun _ member => by cases member
  | cons c rest ih =>
    obtain ⟨digit, isDigit, read⟩ := Option.bind_eq_some_iff.mp read
    intro other member
    rcases List.mem_cons.mp member with rfl | member
    · rw [isDigit]
      rfl
    · exact ih read other member

/-- What spells a number are digits. -/
theorem isSome_of_digits? (read : digits? radix text = some number) :
    ∀ c ∈ text, (digitValue? radix c).isSome = true := by
  unfold digits? at read
  split at read
  · cases read
  · exact isSome_of_accumulate? read

/-- A digit is no sign. -/
theorem ne_sign_of_isSome {c : Char} (isDigit : (digitValue? radix c).isSome = true) :
    c ≠ '+' ∧ c ≠ '-' := by
  constructor
  · rintro rfl
    simp [digitValue?] at isDigit
  · rintro rfl
    simp [digitValue?] at isDigit

/-- The digits of the radix 10 are the decimal ones. -/
theorem isDigit_of_isSome {c : Char} (isDigit : (digitValue? 10 c).isSome = true) :
    c.isDigit = true := by
  obtain ⟨value, isValue⟩ := Option.isSome_iff_exists.mp isDigit
  obtain ⟨⟨member, below⟩, _⟩ := (digitValue?_eq_some_iff (by decide)).mp isValue
  exact isDigit_of_digitNumber c member below

/-- **An integer is written as digits behind an optional sign.** -/
theorem integer?_cases (read : integer? radix text = some value) :
    ∃ digits, (text = digits ∨ text = '-' :: digits ∨ text = '+' :: digits) ∧
      ∀ c ∈ digits, (digitValue? radix c).isSome = true := by
  unfold integer? at read
  split at read
  · rename_i digits
    obtain ⟨_, read, _⟩ := Option.map_eq_some_iff.mp read
    obtain ⟨_, read, _⟩ := Option.bind_eq_some_iff.mp read
    exact ⟨digits, Or.inr (Or.inl rfl), isSome_of_digits? (Option.filter_eq_some_iff.mp read).1⟩
  · obtain ⟨_, read, _⟩ := Option.map_eq_some_iff.mp read
    have read := (Option.filter_eq_some_iff.mp read).1
    split at read
    · exact ⟨_, Or.inr (Or.inr rfl), isSome_of_digits? read⟩
    · exact ⟨_, Or.inl rfl, isSome_of_digits? read⟩

/-- The letters that tell a radix. -/
def marks : List Char := ['x', 'X', 'o', 'O', 'b', 'B']

theorem radixAndDigits_cases (text : List Char) :
    radixAndDigits text = (10, text) ∨ ∃ mark digits radix, text = '0' :: mark :: digits ∧
      mark ∈ marks ∧ radixAndDigits text = (radix, digits) := by
  unfold radixAndDigits
  split <;> simp [marks]

/-- Only a minus in front of the mark of the radix is read before it. -/
theorem prefixed?_of_ne_minus (notMinus : text.head? ≠ some '-') :
    prefixed? text = marked? text := by
  unfold prefixed?
  split
  · exact absurd rfl notMinus
  · rfl

/-- A plus in front of decimal digits does not count. -/
theorem marked?_plus (isDigits : ∀ c ∈ text, (digitValue? 10 c).isSome = true) :
    marked? ('+' :: text) = marked? text := by
  have decimal : radixAndDigits text = (10, text) := by
    rcases radixAndDigits_cases text with isTen | ⟨mark, digits, radix, rfl, isMark, _⟩
    · exact isTen
    · have noDigit : ∀ mark ∈ marks, (digitValue? 10 mark).isSome = false := by
        simp only [marks, List.forall_mem_cons]
        exact ⟨rfl, rfl, rfl, rfl, rfl, rfl, List.forall_mem_nil _⟩
      have isDigit := isDigits mark (by simp)
      rw [noDigit mark isMark] at isDigit
      cases isDigit
  have same : integer? 10 ('+' :: text) = integer? 10 text := by
    cases text with
    | nil => rfl
    | cons c rest =>
      obtain ⟨notPlus, notMinus⟩ := ne_sign_of_isSome (isDigits c List.mem_cons_self)
      simp [integer?, natural?, notPlus, notMinus]
  rw [marked?, marked?, decimal]
  exact same

end Numeral

theorem readInteger_eq_ok_iff {text : List Char} {value : Int} :
    readInteger text = .ok value ↔ Numeral.prefixed? text = some value := by
  unfold readInteger
  cases Numeral.prefixed? text <;> simp

/-! ### Numerals as expressions -/

/-- A text without signs. -/
def Unsigned (text : List Char) : Prop :=
  ∀ c ∈ text, c ≠ '+' ∧ c ≠ '-'

namespace Expr

open Numeral

variable {text front rest piece : List Char} {negated : Bool} {value : Int}
variable {summands : List Summand}

/-- A text without signs is one piece. -/
theorem pieces_of_unsigned (unsigned : Unsigned text) :
    pieces negated text = [(negated, text)] := by
  induction text with
  | nil => rfl
  | cons c rest ih =>
    obtain ⟨notPlus, notMinus⟩ := unsigned c List.mem_cons_self
    rw [pieces, if_neg notPlus, if_neg notMinus,
      ih fun other member => unsigned other (List.mem_cons_of_mem _ member)]

/-- The first sign ends the first piece and belongs to the second one. -/
theorem pieces_append_sign {sign : Char} (unsigned : Unsigned front)
    (isSign : sign = '+' ∨ sign = '-') :
    pieces negated (front ++ sign :: rest) = (negated, front) :: pieces (sign == '-') rest := by
  induction front with
  | nil => rcases isSign with rfl | rfl <;> rfl
  | cons c front ih =>
    obtain ⟨notPlus, notMinus⟩ := unsigned c List.mem_cons_self
    rw [List.cons_append, pieces, if_neg notPlus, if_neg notMinus,
      ih fun other member => unsigned other (List.mem_cons_of_mem _ member)]

/-- The first piece of an expression is a term, and the other ones are the other summands. -/
theorem readSummands_cons_iff {parts : List (Bool × List Char)} :
    readSummands ((negated, piece) :: parts) = .ok summands ↔
      ∃ term later, Term.parse piece = .ok term ∧ readSummands parts = .ok later ∧
        summands = ⟨negated, term⟩ :: later := by
  rw [readSummands]
  cases Term.parse piece with
  | error => simp
  | ok term =>
    cases readSummands parts with
    | error => simp
    | ok later => simp [eq_comm]

/-- A single piece that begins with a digit is the number that it spells. -/
theorem summands_of_digit (parsed : readSummands [(negated, piece)] = .ok summands)
    (isDigit : ∀ c, piece.head? = some c → c.isDigit = true) :
    ∃ number, readInteger piece = .ok number ∧ summands = [⟨negated, .number number⟩] := by
  obtain ⟨term, later, isTerm, nothing, rfl⟩ := readSummands_cons_iff.mp parsed
  cases nothing
  cases piece with
  | nil => cases isTerm
  | cons c rest =>
    have decimal : c.isDigit = true := isDigit c rfl
    unfold Term.parse at isTerm
    split at isTerm
    · rename_i isHere
      cases isHere
      cases decimal
    · rw [if_pos (by simpa using decimal)] at isTerm
      obtain ⟨number, read, rfl⟩ := map_eq_ok_iff.mp isTerm
      exact ⟨number, read, rfl⟩

/-- Decimal digits are a number. -/
theorem summands_of_decimal (isDigits : ∀ c ∈ text, (digitValue? 10 c).isSome = true)
    (read : marked? text = some value)
    (parsed : readSummands (pieces negated text) = .ok summands) :
    summands = [⟨negated, .number value⟩] := by
  rw [pieces_of_unsigned fun c member => ne_sign_of_isSome (isDigits c member)] at parsed
  obtain ⟨number, spelled, single⟩ := summands_of_digit parsed fun c first =>
    isDigit_of_isSome (isDigits c (List.mem_of_mem_head? first))
  have notMinus : text.head? ≠ some '-' := fun first =>
    (ne_sign_of_isSome (isDigits '-' (List.mem_of_mem_head? first))).2 rfl
  rw [readInteger_eq_ok_iff, prefixed?_of_ne_minus notMinus, read] at spelled
  rw [single, Option.some.inj spelled]

theorem unsigned_mark : ∀ mark ∈ marks, Unsigned ['0', mark] := by
  simp [Unsigned, marks]

/-- The mark of a radix needs digits. -/
theorem parse_mark : ∀ mark ∈ marks, (Term.parse ['0', mark]).toOption = none := by
  intro mark isMark
  simp only [marks, List.mem_cons, List.not_mem_nil, or_false] at isMark
  rcases isMark with rfl | rfl | rfl | rfl | rfl | rfl <;> rfl

/-- A sign behind the mark of a radix breaks the expression. -/
theorem not_readSummands_mark {mark sign : Char} (isMark : mark ∈ marks)
    (isSign : sign = '+' ∨ sign = '-') :
    readSummands (pieces negated ('0' :: mark :: sign :: rest)) ≠ .ok summands := by
  intro parsed
  rw [show '0' :: mark :: sign :: rest = ['0', mark] ++ sign :: rest from rfl,
    pieces_append_sign (unsigned_mark mark isMark) isSign] at parsed
  obtain ⟨term, _, isTerm, _⟩ := readSummands_cons_iff.mp parsed
  have refused := parse_mark mark isMark
  rw [isTerm] at refused
  cases refused

/-- An expression that reads as an integer without a sign in front of it is that number. -/
theorem summands_of_marked? (read : marked? text = some value)
    (parsed : readSummands (pieces negated text) = .ok summands) :
    summands = [⟨negated, .number value⟩] := by
  have whole := read
  unfold marked? at read
  rcases radixAndDigits_cases text with isTen | ⟨mark, behind, radix, rfl, isMark, isRadix⟩
  · rw [isTen] at read
    obtain ⟨digits, rfl | rfl | rfl, isDigits⟩ := integer?_cases read
    · exact summands_of_decimal isDigits whole parsed
    -- A sign at the front leaves an empty piece before it, which is no term.
    · obtain ⟨_, _, impossible, _⟩ := readSummands_cons_iff.mp parsed
      cases impossible
    · obtain ⟨_, _, impossible, _⟩ := readSummands_cons_iff.mp parsed
      cases impossible
  · rw [isRadix] at read
    obtain ⟨digits, rfl | rfl | rfl, isDigits⟩ := integer?_cases read
    -- Hexadecimal digits may be letters, but the piece begins with the zero of the mark.
    · have unsigned : Unsigned ('0' :: mark :: behind) := by
        intro c member
        rcases List.mem_append.mp (show c ∈ ['0', mark] ++ behind from member) with front | digit
        · exact unsigned_mark mark isMark c front
        · exact ne_sign_of_isSome (isDigits c digit)
      rw [pieces_of_unsigned unsigned] at parsed
      obtain ⟨number, spelled, single⟩ := summands_of_digit parsed (by
        rintro c ⟨⟩
        rfl)
      rw [readInteger_eq_ok_iff, prefixed?_of_ne_minus (by simp), whole] at spelled
      rw [single, Option.some.inj spelled]
    · exact absurd parsed (not_readSummands_mark isMark (Or.inr rfl))
    · exact absurd parsed (not_readSummands_mark isMark (Or.inl rfl))

/-- An expression that reads as an integer with a plus in front of it is that number. -/
theorem summands_of_plus (read : marked? ('+' :: text) = some value)
    (parsed : readSummands (pieces negated text) = .ok summands) :
    summands = [⟨negated, .number value⟩] := by
  have isDecimal : integer? 10 ('+' :: text) = some value := read
  obtain ⟨digits, same | same | same, isDigits⟩ := integer?_cases isDecimal
  · subst same
    exact absurd rfl (ne_sign_of_isSome (isDigits '+' List.mem_cons_self)).1
  · cases same
  · cases same
    rw [marked?_plus isDigits] at read
    exact summands_of_decimal isDigits read parsed

/-- **An expression that reads as an integer is a single number**, which is the integer but for its
sign. -/
theorem summands_of_readInteger {expr : Expr} (read : readInteger text = .ok value)
    (parsed : Expr.parse (String.ofList text) = .ok expr) :
    ∃ negated number, expr.summands = [⟨negated, .number number⟩] ∧
      value = if negated then -number else number := by
  have read := readInteger_eq_ok_iff.mp read
  unfold Expr.parse at parsed
  rw [String.toList_ofList] at parsed
  split at parsed
  · rename_i summands isSum
    cases parsed
    show ∃ negated number, summands = [⟨negated, .number number⟩] ∧ _
    unfold signedPieces at isSum
    unfold prefixed? at read
    split at isSum
    · obtain ⟨number, behind, rfl⟩ := Option.map_eq_some_iff.mp read
      have isNumber := (Option.filter_eq_some_iff.mp behind).1
      exact ⟨true, number, summands_of_marked? isNumber isSum, rfl⟩
    · exact ⟨false, value, summands_of_plus read isSum, rfl⟩
    · rename_i notMinus _
      split at read
      · exact absurd rfl (notMinus _)
      · exact ⟨false, value, summands_of_marked? read isSum, rfl⟩
  · cases parsed

variable {here : Nat} {lookup : String → Option Value} {found : Value}

/-- A single number is a constant. -/
theorem eval_of_number {expr : Expr} {number : Int}
    (single : expr.summands = [⟨negated, .number number⟩])
    (evaluated : expr.eval here lookup = .ok found) :
    found = .absolute (if negated then -number else number) := by
  unfold eval at evaluated
  rw [single] at evaluated
  split at evaluated
  · rename_i sum isSum
    unfold evalFrom Term.value addTo at isSum
    by_cases inBounds : inRange (if negated then -number else number)
    · simp [Value.absolute, evalFrom, inBounds] at isSum
      simp [← isSum] at evaluated
      simp [← evaluated, Value.absolute]
    · simp [Value.absolute, inBounds] at isSum
  · cases evaluated

/-- **Both readers give a text the same value.** -/
theorem eval_of_readInteger {expr : Expr} (read : readInteger text = .ok value)
    (parsed : Expr.parse (String.ofList text) = .ok expr)
    (evaluated : expr.eval here lookup = .ok found) : found = .absolute value := by
  obtain ⟨negated, number, single, same⟩ := summands_of_readInteger read parsed
  rw [same]
  exact eval_of_number single evaluated

end Expr

/-! ### The lines of literals -/

/-- The bytes that a literal stands for: those of its constant, or the low 24 bits of its number. -/
def Literal.contents : Literal → List UInt8
  | .bytes content => content
  | .word number => Bytes.ofNat 3 (number % 0x1000000).toNat

theorem Literal.length_contents (literal : Literal) : literal.contents.length = literal.size := by
  cases literal with
  | bytes content => rfl
  | word number => exact Bytes.length_ofNat _ _

namespace LiteralPool

variable {placement : Placement} {base : Option UInt32} {text : String} {literal : Literal}
variable {address : Nat} {encoded : EncodedLine}

/-- **The line that holds a literal is encoded as the bytes of the literal**, without a record. -/
theorem encodeLine_dataLine (isLiteral : Literal.parse text = .ok literal)
    (succeeded : placement.encodeLine base (dataLine text address literal.size) = .ok encoded) :
    encoded = ⟨literal.contents, none⟩ := by
  rcases Literal.parse_cases isLiteral with ⟨content, rfl, read⟩ | ⟨number, rfl, read⟩
  · simp only [dataLine, data, isLiteral, Placement.encodeLine] at succeeded
    obtain ⟨operand, given, succeeded⟩ := bind_eq_ok_iff.mp succeeded
    cases given
    obtain ⟨bytes, again, same⟩ := bind_eq_ok_iff.mp succeeded
    cases same
    rw [String.toList_ofList, read] at again
    cases again
    rfl
  · simp only [dataLine, data, isLiteral, Placement.encodeLine] at succeeded
    obtain ⟨operand, given, succeeded⟩ := bind_eq_ok_iff.mp succeeded
    cases given
    obtain ⟨value, evaluated, succeeded⟩ := bind_eq_ok_iff.mp succeeded
    obtain ⟨field, holds, succeeded⟩ := bind_eq_ok_iff.mp succeeded
    obtain ⟨expr, parsed, evaluated⟩ := bind_eq_ok_iff.mp evaluated
    cases Expr.eval_of_readInteger read parsed evaluated
    simp [Placement.addressField, Value.absolute] at holds
    subst holds
    split at succeeded
    · cases succeeded
      rfl
    · cases succeeded

end LiteralPool

end Sicxe
