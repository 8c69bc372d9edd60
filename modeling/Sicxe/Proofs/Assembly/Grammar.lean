import Sicxe.Proofs.Assembly.LiteralWord

/-!
# Which texts are expressions

An expression is an optional sign and terms with one sign between each two. The grammar is told from
its leaves upwards, each kind of text by an inductive that also says what the text stands for.

* `Numeral.Spells`: a number without a sign, in one of the four radixes. The reader of numbers takes
  signs at two places; on a text without signs it takes exactly these
  (`Numeral.marked?_eq_some_iff`).
* `Term.Spells`: the line, a number that fits, or an identifier (`Term.parse_eq_ok_iff`).
* `Expr.Spelled`: the sum of some terms. **`Expr.parse_eq_ok_iff`: exactly these texts are read, as
  the summands that they spell.**
-/

namespace Sicxe

/-! ### Numbers -/

namespace Numeral

variable {radix number : Nat} {mark : Char} {text digits : List Char} {value : Int}

/-- The radix that a letter behind a zero tells. -/
def markRadix? : Char → Option Nat
  | 'x' | 'X' => some 16
  | 'o' | 'O' => some 8
  | 'b' | 'B' => some 2
  | _ => none

/-- The numbers without a sign: decimal digits, or the digits of another radix behind its mark. -/
inductive Spells : List Char → Nat → Prop
  | decimal {text : List Char} {number : Nat} (writes : Writes 10 text number) :
    Spells text number
  | marked {mark : Char} {radix number : Nat} {digits : List Char}
      (isMark : markRadix? mark = some radix) (writes : Writes radix digits number) :
    Spells ('0' :: mark :: digits) number

theorem markRadix?_cases (isMark : markRadix? mark = some radix) :
    mark ∈ marks ∧ radix ≤ 16 := by
  unfold markRadix? at isMark
  split at isMark <;> cases isMark <;> simp [marks]

theorem radixAndDigits_of_mark (isMark : markRadix? mark = some radix) (digits : List Char) :
    radixAndDigits ('0' :: mark :: digits) = (radix, digits) := by
  unfold markRadix? at isMark
  split at isMark <;> cases isMark <;> rfl

theorem radixAndDigits_eq_or (text : List Char) :
    radixAndDigits text = (10, text) ∨ ∃ mark radix digits, text = '0' :: mark :: digits ∧
      markRadix? mark = some radix := by
  unfold radixAndDigits
  split <;> simp [markRadix?]

/-- **A text without a sign is read by its digits alone.** -/
theorem integer?_eq_some_iff (small : radix ≤ 16) (unsigned : Unsigned text) :
    integer? radix text = some value ↔
      ∃ number : Nat, Writes radix text number ∧ number < signBound ∧ value = number := by
  have plain : integer? radix text =
      ((digits? radix text).filter (· < signBound)).map Int.ofNat := by
    cases text with
    | nil => rfl
    | cons c rest =>
      obtain ⟨notPlus, notMinus⟩ := unsigned c List.mem_cons_self
      simp [integer?, natural?, notPlus, notMinus]
  rw [plain, Option.map_eq_some_iff]
  simp only [Option.filter_eq_some_iff, digits?_eq_some_iff small, decide_eq_true_eq, and_assoc,
    Int.ofNat_eq_natCast, eq_comm (a := value)]

/-- The mark of a radix is no decimal digit. -/
theorem Writes.radixAndDigits_eq (writes : Writes 10 text number) :
    radixAndDigits text = (10, text) := by
  rcases radixAndDigits_eq_or text with decimal | ⟨mark, radix, digits, rfl, isMark⟩
  · exact decimal
  · have above : ∀ mark ∈ marks, ¬ Hex.digitNumber mark < 10 :=
      forall_mem_of_all (by decide)
    exact absurd (writes.digits mark (by simp)).2 (above mark (markRadix?_cases isMark).1)

/-- **The numbers of a text without signs**, as long as they fit. -/
theorem marked?_eq_some_iff (unsigned : Unsigned text) :
    marked? text = some value ↔
      ∃ number : Nat, Spells text number ∧ number < signBound ∧ value = number := by
  constructor
  · intro read
    unfold marked? at read
    rcases radixAndDigits_eq_or text with decimal | ⟨mark, radix, digits, rfl, isMark⟩
    · rw [decimal] at read
      obtain ⟨number, writes, fits, same⟩ :=
        (integer?_eq_some_iff (by decide) unsigned).mp read
      exact ⟨number, .decimal writes, fits, same⟩
    · have behind : Unsigned digits := fun c member =>
        unsigned c (List.mem_cons_of_mem _ (List.mem_cons_of_mem _ member))
      rw [radixAndDigits_of_mark isMark] at read
      obtain ⟨number, writes, fits, same⟩ :=
        (integer?_eq_some_iff (markRadix?_cases isMark).2 behind).mp read
      exact ⟨number, .marked isMark writes, fits, same⟩
  · rintro ⟨number, spelled, fits, rfl⟩
    unfold marked?
    cases spelled with
    | decimal writes =>
      rw [writes.radixAndDigits_eq]
      exact (integer?_eq_some_iff (by decide) unsigned).mpr ⟨number, writes, fits, rfl⟩
    | marked isMark writes =>
      have behind : Unsigned _ := fun c member =>
        unsigned c (List.mem_cons_of_mem _ (List.mem_cons_of_mem _ member))
      rw [radixAndDigits_of_mark isMark]
      exact (integer?_eq_some_iff (markRadix?_cases isMark).2 behind).mpr
        ⟨number, writes, fits, rfl⟩

/-- Digits are no signs. -/
theorem Writes.unsigned (writes : Writes radix text number) : Unsigned text := by
  have plain : ∀ c ∈ Hex.digitChars, c ≠ '+' ∧ c ≠ '-' := forall_mem_of_all (by decide)
  exact fun c member => plain c (writes.digits c member).1

theorem Spells.unsigned (spelled : Spells text number) : Unsigned text := by
  cases spelled with
  | decimal writes => exact writes.unsigned
  | marked isMark writes =>
    intro c member
    rcases List.mem_append.mp (show c ∈ ['0', _] ++ _ from member) with front | digit
    · exact Expr.unsigned_mark _ (markRadix?_cases isMark).1 c front
    · exact writes.unsigned c digit

/-- A number begins with a decimal digit in every radix. -/
theorem Spells.head_isDigit (spelled : Spells text number) :
    text.head?.any Char.isDigit = true := by
  cases spelled with
  | decimal writes =>
    cases text with
    | nil => exact absurd rfl writes.nonempty
    | cons c rest =>
      obtain ⟨isDigit, below⟩ := writes.digits c List.mem_cons_self
      exact isDigit_of_digitNumber c isDigit below
  | marked => rfl

end Numeral

/-! ### Terms -/

namespace Term

variable {text : List Char} {term : Term}

/-- The terms: the line itself, a number that fits 64 bits, or an identifier. -/
inductive Spells : List Char → Term → Prop
  | here : Spells ['*'] .here
  | number {text : List Char} {number : Nat} (spelled : Numeral.Spells text number)
      (fits : number < Numeral.signBound) :
    Spells text (.number number)
  | symbol {first : Char} {rest : List Char} (letter : first.isAlpha = true ∨ first = '_')
      (letters : ∀ c ∈ rest, c.isAlphanum = true ∨ c = '_') :
    Spells (first :: rest) (.symbol (String.ofList (first :: rest)))

theorem isIdentifier_cons_iff {first : Char} {rest : List Char} :
    isIdentifier (first :: rest) = true ↔ (first.isAlpha = true ∨ first = '_') ∧
      ∀ c ∈ rest, c.isAlphanum = true ∨ c = '_' := by
  simp [isIdentifier]

theorem Spells.unsigned (spelled : Spells text term) : Unsigned text := by
  cases spelled with
  | here => simp [Unsigned]
  | number spelled => exact spelled.unsigned
  | symbol letter letters =>
    intro c member
    have inWord : c.isAlphanum = true ∨ c = '_' := by
      rcases List.mem_cons.mp member with rfl | member
      · exact letter.imp_left fun isLetter => by rw [Char.isAlphanum, isLetter, Bool.true_or]
      · exact letters c member
    constructor <;> rintro rfl <;> exact absurd inWord (by decide)

theorem Spells.ne_nil (spelled : Spells text term) : text ≠ [] := by
  cases spelled with
  | here => simp
  | number spelled =>
    rintro rfl
    cases spelled.head_isDigit
  | symbol => simp

/-- A letter is no digit. -/
theorem not_isDigit {c : Char} (letter : c.isAlpha = true ∨ c = '_') : ¬ c.isDigit = true := by
  intro decimal
  rcases letter with isLetter | rfl
  · have letters : c.isAlpha = (decide (65 ≤ c.val ∧ c.val ≤ 90) ||
        (decide (97 ≤ c.val) && decide (c.val ≤ 122))) := rfl
    have digits : c.isDigit = (decide (48 ≤ c.val) && decide (c.val ≤ 57)) := rfl
    simp only [letters, Bool.or_eq_true, Bool.and_eq_true, decide_eq_true_eq,
      UInt32.le_iff_toNat_le] at isLetter
    simp only [digits, Bool.and_eq_true, decide_eq_true_eq, UInt32.le_iff_toNat_le] at decimal
    have inLetters : 65 ≤ c.toNat ∧ c.toNat ≤ 90 ∨ 97 ≤ c.toNat ∧ c.toNat ≤ 122 := isLetter
    have inDigits : 48 ≤ c.toNat ∧ c.toNat ≤ 57 := decimal
    omega
  · cases decimal

/-- **A text without signs is read as the term that it spells.** -/
theorem parse_eq_ok_iff (unsigned : Unsigned text) :
    parse text = .ok term ↔ Spells text term := by
  have integer : ∀ value, readInteger text = .ok value ↔
      ∃ number : Nat, Numeral.Spells text number ∧ number < Numeral.signBound ∧ value = number := by
    intro value
    have notMinus : text.head? ≠ some '-' := fun first =>
      (unsigned '-' (List.mem_of_mem_head? first)).2 rfl
    rw [readInteger_eq_ok_iff, Numeral.prefixed?_of_ne_minus notMinus,
      Numeral.marked?_eq_some_iff unsigned]
  constructor
  · intro parsed
    unfold parse at parsed
    split at parsed
    · rename_i isHere
      cases parsed
      rw [isHere]
      exact .here
    · split at parsed
      · obtain ⟨value, read, rfl⟩ := map_eq_ok_iff.mp parsed
        obtain ⟨number, spelled, fits, rfl⟩ := (integer value).mp read
        exact .number spelled fits
      · split at parsed
        · rename_i isName
          cases parsed
          cases text with
          | nil => cases isName
          | cons first rest =>
            obtain ⟨letter, letters⟩ := isIdentifier_cons_iff.mp isName
            exact .symbol letter letters
        · cases parsed
  · intro spelled
    unfold parse
    cases spelled with
    | here => rfl
    | @number _ number spelled fits =>
      have isDigit := spelled.head_isDigit
      have notHere : text ≠ ['*'] := by
        rintro rfl
        cases isDigit
      rw [if_neg notHere, if_pos isDigit, (integer number).mpr ⟨number, spelled, fits, rfl⟩]
      rfl
    | @symbol first rest letter letters =>
      have notHere : first :: rest ≠ ['*'] := by
        rintro ⟨⟩
        exact absurd letter (by decide)
      have noDigit : ¬ (first :: rest).head?.any Char.isDigit = true := by
        intro isDigit
        have decimal : first.isDigit = true := by simpa using isDigit
        exact not_isDigit letter decimal
      rw [if_neg notHere, if_neg noDigit, if_pos (isIdentifier_cons_iff.mpr ⟨letter, letters⟩)]

end Term

/-! ### Sums -/

namespace Expr

variable {text front rest : List Char} {negated : Bool} {summands : List Summand}

/-- The character of a sign. -/
def sign (negated : Bool) : Char :=
  if negated then '-' else '+'

theorem isSign_sign (negated : Bool) : sign negated = '+' ∨ sign negated = '-' := by
  cases negated <;> simp [sign]

/-- Terms with one sign between each two. The first one has the sign `negated`, which is not in the
text. -/
inductive SpelledFrom : Bool → List Char → List Summand → Prop
  | last {negated : Bool} {text : List Char} {term : Term} (isTerm : Term.Spells text term) :
    SpelledFrom negated text [⟨negated, term⟩]
  | next {negated following : Bool} {front rest : List Char} {term : Term}
      {summands : List Summand} (isTerm : Term.Spells front term)
      (later : SpelledFrom following rest summands) :
    SpelledFrom negated (front ++ sign following :: rest) (⟨negated, term⟩ :: summands)

/-- The expressions: some terms, with or without a sign in front of them. -/
inductive Spelled : List Char → List Summand → Prop
  | unsigned {text : List Char} {summands : List Summand}
      (spelled : SpelledFrom false text summands) : Spelled text summands
  | signed {negated : Bool} {text : List Char} {summands : List Summand}
      (spelled : SpelledFrom negated text summands) : Spelled (sign negated :: text) summands

/-- A text has no sign or a first one. -/
theorem unsigned_or_sign (text : List Char) :
    Unsigned text ∨ ∃ front following rest, Unsigned front ∧
      text = front ++ sign following :: rest := by
  induction text with
  | nil => exact .inl fun _ member => by cases member
  | cons c text ih =>
    by_cases isSign : c = '+' ∨ c = '-'
    · refine .inr ⟨[], c == '-', text, fun _ member => (by cases member), ?_⟩
      rcases isSign with rfl | rfl <;> rfl
    · have noSign : c ≠ '+' ∧ c ≠ '-' := not_or.mp isSign
      rcases ih with unsigned | ⟨front, following, rest, unsigned, rfl⟩
      · exact .inl (List.forall_mem_cons.mpr ⟨noSign, unsigned⟩)
      · exact .inr ⟨c :: front, following, rest, List.forall_mem_cons.mpr ⟨noSign, unsigned⟩, rfl⟩

/-- The first sign ends the first piece. -/
theorem pieces_append (unsigned : Unsigned front) (following : Bool) :
    pieces negated (front ++ sign following :: rest) =
      (negated, front) :: pieces following rest := by
  rw [pieces_append_sign unsigned (isSign_sign following)]
  cases following <;> rfl

theorem spelledFrom_of_readSummands {negated : Bool} {text : List Char} {summands : List Summand}
    (parsed : readSummands (pieces negated text) = .ok summands) :
    SpelledFrom negated text summands := by
  rcases unsigned_or_sign text with unsigned | ⟨front, following, rest, unsigned, rfl⟩
  · rw [pieces_of_unsigned unsigned, readSummands_cons_iff] at parsed
    obtain ⟨term, later, isTerm, nothing, rfl⟩ := parsed
    cases nothing
    exact .last ((Term.parse_eq_ok_iff unsigned).mp isTerm)
  · rw [pieces_append unsigned, readSummands_cons_iff] at parsed
    obtain ⟨term, later, isTerm, behind, rfl⟩ := parsed
    exact .next ((Term.parse_eq_ok_iff unsigned).mp isTerm) (spelledFrom_of_readSummands behind)
-- What stands behind a sign is shorter.
termination_by text.length

/-- **The pieces between the signs are read exactly if they spell a sum.** -/
theorem readSummands_pieces_iff :
    readSummands (pieces negated text) = .ok summands ↔ SpelledFrom negated text summands := by
  refine ⟨spelledFrom_of_readSummands, fun spelled => ?_⟩
  induction spelled with
  | last isTerm =>
    rw [pieces_of_unsigned isTerm.unsigned]
    exact readSummands_cons_iff.mpr
      ⟨_, _, (Term.parse_eq_ok_iff isTerm.unsigned).mpr isTerm, rfl, rfl⟩
  | next isTerm _ ih =>
    rw [pieces_append isTerm.unsigned]
    exact readSummands_cons_iff.mpr
      ⟨_, _, (Term.parse_eq_ok_iff isTerm.unsigned).mpr isTerm, ih, rfl⟩

/-- Terms do not begin with a sign. -/
theorem SpelledFrom.ne_sign_cons (spelled : SpelledFrom negated text summands) (other : Bool)
    (behind : List Char) : text ≠ sign other :: behind := by
  have plain : ∀ front term, Term.Spells front term → ∀ rest,
      front ++ rest ≠ sign other :: behind := by
    intro front term isTerm rest same
    cases front with
    | nil => exact isTerm.ne_nil rfl
    | cons c front =>
      cases same
      have noSign := isTerm.unsigned _ List.mem_cons_self
      exact (isSign_sign other).elim noSign.1 noSign.2
  cases spelled with
  | last isTerm =>
    have noSign := plain text _ isTerm []
    rwa [List.append_nil] at noSign
  | next isTerm => exact plain _ _ isTerm _

/-- **A text is read exactly if it is an expression**, as the summands that it spells. -/
theorem parse_eq_ok_iff {text : String} {expr : Expr} :
    parse text = .ok expr ↔ expr.text = text ∧ Spelled text.toList expr.summands := by
  have signed : readSummands (signedPieces text.toList) = .ok expr.summands ↔
      Spelled text.toList expr.summands := by
    generalize text.toList = text, expr.summands = summands
    constructor
    · intro parsed
      unfold signedPieces at parsed
      split at parsed
      · exact @Spelled.signed true _ _ (readSummands_pieces_iff.mp parsed)
      · exact @Spelled.signed false _ _ (readSummands_pieces_iff.mp parsed)
      · exact .unsigned (readSummands_pieces_iff.mp parsed)
    · intro spelled
      cases spelled with
      | unsigned spelled =>
        unfold signedPieces
        split
        · exact absurd rfl (spelled.ne_sign_cons true _)
        · exact absurd rfl (spelled.ne_sign_cons false _)
        · exact readSummands_pieces_iff.mpr spelled
      | @signed negated _ _ spelled =>
        cases negated <;> exact readSummands_pieces_iff.mpr spelled
  rw [← signed, parse]
  cases readSummands (signedPieces text.toList) with
  | error => simp
  | ok summands =>
    obtain ⟨ownText, ownSummands⟩ := expr
    simp [eq_comm]

end Expr

end Sicxe
