import Sicxe.Proofs.Assembly.Expression
import Sicxe.Proofs.Assembly.Grammar

/-!
# The signed sum of an expression

The summands of an expression are added from left to right, with a check of each import and of each
partial sum. What comes out is told by the whole list of summands: the sums of their constants and
of their addresses with the signs (`Expr.sumOf`), and the imports with theirs (`Expr.imports`).

* `Expr.Running`: the sum of the first summands. `Expr.Running.add` adds one summand, and
  `Expr.fails_of_addTo` says why a summand is refused.
* `Expr.Sums`: the value of an expression, which `Expr.eval_eq_ok_iff_sums` says to be what the
  evaluation gives. `Expr.Fails`: why an expression has no value.
* `Expr.natAbs_sumOf_relative_le`: the count of addresses is at most the number of summands.
* `Expr.sum_exact`: **an expression means its signed sum, and it fails for one of five reasons.**
-/

namespace Sicxe

/-- What a name stands for: a number, an address of this program or an import. -/
inductive Value.IsAtom : Value → Prop
  | absolute (constant : Int) : IsAtom (.absolute constant)
  | address (address : Nat) : IsAtom (.address address)
  | imported (name : String) : IsAtom (.imported name)

namespace Term

variable {here : Nat} {lookup : String → Option Value} {term : Term} {found : Value}
variable {error : AssemblyError}

/-- What a term stands for. A name that is not known stands for nothing. -/
def meaning (here : Nat) (lookup : String → Option Value) : Term → Value
  | .here => .address here
  | .number value => .absolute value
  | .symbol name => (lookup name).getD {}

/-- A term is known if it is no name or a name that is found. -/
def Known (lookup : String → Option Value) (term : Term) : Prop :=
  ∀ name, term = .symbol name → lookup name ≠ none

theorem value_eq_ok_iff : term.value here lookup = .ok found ↔
    term.Known lookup ∧ found = term.meaning here lookup := by
  cases term with
  | here => simp [value, Known, meaning, eq_comm]
  | number => simp [value, Known, meaning, eq_comm]
  | symbol name =>
    simp only [value, Known, meaning]
    cases isName : lookup name <;> simp [isName, eq_comm]

theorem value_eq_error_iff : term.value here lookup = .error error ↔
    ∃ name, term = .symbol name ∧ lookup name = none ∧ error = .undefinedSymbol name := by
  cases term with
  | here => simp [value]
  | number => simp [value]
  | symbol name =>
    simp only [value]
    cases isName : lookup name <;> simp [isName, eq_comm]

end Term

namespace Expr

variable {here : Nat} {lookup : String → Option Value} {text : String} {expr : Expr}
variable {front rest summands : List Summand} {summand : Summand} {sum next value : Value}
variable {error : AssemblyError}

/-! ### Sums -/

/-- A number with a sign. -/
def signed (negated : Bool) (number : Int) : Int :=
  if negated then -number else number

/-- The sum of one part of all values, with the signs of the summands. -/
def sumOf (here : Nat) (lookup : String → Option Value) (part : Value → Int)
    (summands : List Summand) : Int :=
  (summands.map fun summand =>
    signed summand.negated (part (summand.term.meaning here lookup))).sum

/-- The imports, with the signs of the summands. -/
def imports (here : Nat) (lookup : String → Option Value) (summands : List Summand) :
    List (Bool × String) :=
  summands.filterMap fun summand =>
    (summand.term.meaning here lookup).external.map fun name => (summand.negated, name)

theorem sumOf_concat (part : Value → Int) :
    sumOf here lookup part (front ++ [summand]) = sumOf here lookup part front +
      signed summand.negated (part (summand.term.meaning here lookup)) := by
  simp [sumOf]

theorem imports_append : imports here lookup (front ++ rest) =
    imports here lookup front ++ imports here lookup rest :=
  List.filterMap_append

theorem imports_singleton : imports here lookup [summand] =
    (summand.term.meaning here lookup).external.toList.map fun name => (summand.negated, name) := by
  unfold imports
  cases isImport : (summand.term.meaning here lookup).external <;> simp [isImport]

/-! ### The sum of the first summands -/

/-- The sum of some summands: all names are known, all partial sums are in range, and there is at
most one import, with a plus. -/
structure Running (here : Nat) (lookup : String → Option Value) (front : List Summand)
    (sum : Value) : Prop where
  known : ∀ summand ∈ front, summand.term.Known lookup
  constant : sum.constant = sumOf here lookup Value.constant front
  relative : sum.relative = sumOf here lookup Value.relative front
  imports : imports here lookup front = sum.external.toList.map fun name => (false, name)
  inRange : ∀ part, part <+: front → inRange (sumOf here lookup Value.constant part) = true

theorem Running.nothing : Running here lookup [] {} where
  known := fun _ member => by cases member
  constant := rfl
  relative := rfl
  imports := rfl
  inRange := fun part isPart => by
    rw [List.prefix_nil.mp isPart]
    rfl

/-- The value of an expression: the sum of all summands, in which no import is mixed with addresses
of the program. -/
structure Sums (here : Nat) (lookup : String → Option Value) (summands : List Summand)
    (value : Value) : Prop extends Running here lookup summands value where
  unmixed : value.external = none ∨ value.relative = 0

/-- Why an expression has no value. -/
inductive Fails (here : Nat) (lookup : String → Option Value) (expr : Expr) :
    AssemblyError → Prop
  | unknown {negated : Bool} {name : String}
      (occurs : ⟨negated, .symbol name⟩ ∈ expr.summands) (isUnknown : lookup name = none) :
    Fails here lookup expr (.undefinedSymbol name)
  | range {front : List Summand} {summand : Summand}
      (isPart : front ++ [summand] <+: expr.summands)
      (known : ∀ other ∈ front ++ [summand], other.term.Known lookup)
      (outside : inRange (sumOf here lookup Value.constant (front ++ [summand])) = false) :
    Fails here lookup expr (.valueRange (summand.term.meaning here lookup).constant 64)
  | subtracted {name : String} (isImport : (true, name) ∈ imports here lookup expr.summands) :
    Fails here lookup expr (.badExpression expr.text)
  | second (many : 2 ≤ (imports here lookup expr.summands).length) :
    Fails here lookup expr (.badExpression expr.text)
  | mixed (isImport : imports here lookup expr.summands ≠ [])
      (isMoved : sumOf here lookup Value.relative expr.summands ≠ 0) :
    Fails here lookup expr (.badExpression expr.text)

theorem add_signed (first second : Int) (negated : Bool) :
    (if negated then first - second else first + second) = first + signed negated second := by
  cases negated
  · rfl
  · exact Int.sub_eq_add_neg

theorem inRange_of_addTo {negated : Bool} (added : addTo text sum negated value = .ok next) :
    inRange next.constant = true := by
  unfold addTo at added
  split at added
  · cases added
  · dsimp only at added
    rw [add_signed] at added
    split at added
    · rename_i fits
      cases added
      exact fits
    · cases added

/-- A summand is refused for its import or for the sum behind it. -/
theorem addTo_error_cases {negated : Bool} (refused : addTo text sum negated value = .error error) :
    (∃ name, value.external = some name ∧ (negated = true ∨ sum.external ≠ none) ∧
        error = .badExpression text) ∨
      inRange (sum.constant + signed negated value.constant) = false ∧
        error = .valueRange value.constant 64 := by
  unfold addTo at refused
  split at refused
  · rename_i forbidden
    cases refused
    simp only [Bool.and_eq_true, Bool.or_eq_true, Option.isSome_iff_exists] at forbidden
    obtain ⟨⟨name, isImport⟩, negated | ⟨other, isOther⟩⟩ := forbidden
    · exact .inl ⟨name, isImport, .inl negated, rfl⟩
    · exact .inl ⟨name, isImport, .inr (by simp [isOther]), rfl⟩
  · dsimp only at refused
    rw [add_signed] at refused
    split at refused
    · cases refused
    · rename_i outside
      cases refused
      exact .inr ⟨Bool.eq_false_iff.mpr outside, rfl⟩

/-- **The sum goes on with one more summand.** -/
theorem Running.add (running : Running here lookup front sum)
    (known : summand.term.Known lookup)
    (added : addTo text sum summand.negated (summand.term.meaning here lookup) = .ok next) :
    Running here lookup (front ++ [summand]) next := by
  have fits := inRange_of_addTo added
  obtain ⟨alone, rfl⟩ := addTo_cases added
  simp only [add_signed] at fits ⊢
  have constant : sum.constant +
      signed summand.negated (summand.term.meaning here lookup).constant =
        sumOf here lookup Value.constant (front ++ [summand]) := by
    rw [sumOf_concat, running.constant]
  refine ⟨?_, constant, ?_, ?_, ?_⟩
  · exact List.forall_mem_append.mpr ⟨running.known, List.forall_mem_singleton.mpr known⟩
  · show sum.relative + _ = _
    rw [sumOf_concat, running.relative]
  · rw [imports_append, imports_singleton, running.imports]
    rcases alone with isLocal | ⟨added, isFirst⟩
    · simp [isLocal]
    · cases imported : (summand.term.meaning here lookup).external <;> simp [added, isFirst]
  · intro part isPart
    rcases List.prefix_concat_iff.mp isPart with rfl | earlier
    · rwa [← constant]
    · exact running.inRange part earlier

theorem running_of_evalFrom (running : Running here lookup front sum)
    (evaluated : evalFrom text here lookup sum rest = .ok value) :
    Running here lookup (front ++ rest) value := by
  -- On the summands that are left; the sum so far knows of the checks behind it.
  induction rest generalizing front sum with
  | nil =>
    cases evaluated
    rwa [List.append_nil]
  | cons summand rest ih =>
    obtain ⟨found, next, isValue, added, evaluated⟩ := evalFrom_cons_eq_ok_iff.mp evaluated
    obtain ⟨known, rfl⟩ := Term.value_eq_ok_iff.mp isValue
    rw [List.append_cons]
    exact ih (running.add known added) evaluated

/-- **A summand that is refused is a reason to fail.** -/
theorem fails_of_addTo (running : Running here lookup front sum)
    (known : summand.term.Known lookup) (whole : expr.summands = front ++ [summand] ++ rest)
    (refused : addTo expr.text sum summand.negated (summand.term.meaning here lookup) =
      .error error) :
    Fails here lookup expr error := by
  rcases addTo_error_cases refused with ⟨name, isImport, forbidden, rfl⟩ | ⟨outside, rfl⟩
  · have imported : imports here lookup expr.summands =
        imports here lookup front ++ (summand.negated, name) :: imports here lookup rest := by
      rw [whole, imports_append, imports_append, imports_singleton, isImport, List.append_assoc]
      rfl
    rcases forbidden with isNegated | isSecond
    · have isSubtracted : (true, name) ∈ imports here lookup expr.summands := by
        rw [imported, isNegated]
        exact List.mem_append_right _ List.mem_cons_self
      exact .subtracted isSubtracted
    · obtain ⟨first, isFirst⟩ := Option.ne_none_iff_exists'.mp isSecond
      refine .second ?_
      rw [imported, running.imports, isFirst]
      simp
  · have outside : inRange (sumOf here lookup Value.constant (front ++ [summand])) = false := by
      rwa [sumOf_concat, ← running.constant]
    exact .range ⟨rest, whole.symm⟩
      (List.forall_mem_append.mpr ⟨running.known, List.forall_mem_singleton.mpr known⟩) outside

/-- A sum that is refused fails for a reason. -/
theorem fails_of_evalFrom (running : Running here lookup front sum)
    (whole : expr.summands = front ++ rest)
    (refused : evalFrom expr.text here lookup sum rest = .error error) :
    Fails here lookup expr error := by
  induction rest generalizing front sum with
  | nil => cases refused
  | cons summand rest ih =>
    rw [List.append_cons] at whole
    rcases evalFrom_cons_eq_error_iff.mp refused with noValue | ⟨found, isValue, refused⟩
    · obtain ⟨name, isName, isUnknown, rfl⟩ := Term.value_eq_error_iff.mp noValue
      have occurs : ⟨summand.negated, .symbol name⟩ ∈ expr.summands := by
        rw [whole, ← isName]
        exact List.mem_append_left _ (List.mem_append_right _ List.mem_cons_self)
      exact .unknown occurs isUnknown
    · obtain ⟨known, rfl⟩ := Term.value_eq_ok_iff.mp isValue
      rcases refused with notAdded | ⟨next, added, refused⟩
      · exact fails_of_addTo running known whole notAdded
      · exact ih (running.add known added) whole refused

/-! ### The value of an expression -/

theorem sums_of_eval (evaluated : expr.eval here lookup = .ok value) :
    Sums here lookup expr.summands value := by
  obtain ⟨summed, unmixed⟩ := eval_eq_ok_iff.mp evaluated
  exact ⟨running_of_evalFrom .nothing summed, unmixed⟩

/-- **An expression without a value fails for a reason.** -/
theorem fails_of_eval (failed : expr.eval here lookup = .error error) :
    Fails here lookup expr error := by
  unfold eval at failed
  split at failed
  · rename_i value summed
    have running : Running here lookup expr.summands value := running_of_evalFrom .nothing summed
    split at failed
    · rename_i mixed
      cases failed
      simp only [Bool.and_eq_true, Option.isSome_iff_exists, bne_iff_ne] at mixed
      obtain ⟨⟨name, isImport⟩, isMoved⟩ := mixed
      refine .mixed ?_ ?_
      · rw [running.imports, isImport]
        simp
      · rwa [← running.relative]
    · cases failed
  · rename_i reason refused
    cases failed
    exact fails_of_evalFrom .nothing rfl refused

/-- **A sum has no reason to fail.** -/
theorem Sums.not_fails (sums : Sums here lookup expr.summands value) :
    ¬ Fails here lookup expr error := by
  intro fails
  cases fails with
  | unknown occurs isUnknown => exact sums.known _ occurs _ rfl isUnknown
  | range isPart _ outside => exact Bool.false_ne_true (outside.symm.trans (sums.inRange _ isPart))
  | subtracted isImport =>
    rw [sums.imports] at isImport
    simp at isImport
  | second many =>
    rw [sums.imports] at many
    cases external : value.external <;> simp [external] at many
  | mixed isImport isMoved =>
    rcases sums.unmixed with isLocal | unmoved
    · rw [sums.imports, isLocal] at isImport
      exact isImport rfl
    · exact isMoved (sums.relative.symm.trans unmoved)

/-- There is one sum. -/
theorem Running.unique (first : Running here lookup summands value)
    (second : Running here lookup summands next) : value = next := by
  have constant : value.constant = next.constant := first.constant.trans second.constant.symm
  have relative : value.relative = next.relative := first.relative.trans second.relative.symm
  have external : value.external = next.external := by
    have only : ∀ external : Option String,
        ((external.toList.map fun name => (false, name)).head?.map Prod.snd) = external := by
      intro external
      cases external <;> rfl
    rw [← only value.external, ← first.imports, second.imports, only]
  obtain ⟨_, _, _⟩ := value
  obtain ⟨_, _, _⟩ := next
  rw [Value.mk.injEq]
  exact ⟨constant, relative, external⟩

/-- **The value of an expression is its sum.** -/
theorem eval_eq_ok_iff_sums :
    expr.eval here lookup = .ok value ↔ Sums here lookup expr.summands value := by
  refine ⟨sums_of_eval, fun sums => ?_⟩
  cases evaluated : expr.eval here lookup with
  | ok found => rw [(sums_of_eval evaluated).unique sums.toRunning]
  | error error => exact absurd (fails_of_eval evaluated) sums.not_fails

/-! ### The count of addresses -/

/-- Each summand counts for one address at most. -/
theorem natAbs_sumOf_relative_le (here : Nat)
    (atoms : ∀ name value, lookup name = some value → value.IsAtom) (summands : List Summand) :
    (sumOf here lookup Value.relative summands).natAbs ≤ summands.length := by
  have single : ∀ term : Term, (term.meaning here lookup).relative = 0 ∨
      (term.meaning here lookup).relative = 1 := by
    intro term
    cases term with
    | here => exact .inr rfl
    | number => exact .inl rfl
    | symbol name =>
      simp only [Term.meaning]
      cases isName : lookup name with
      | none => exact .inl rfl
      | some value =>
        cases atoms name value isName with
        | absolute => exact .inl rfl
        | address => exact .inr rfl
        | imported => exact .inl rfl
  induction summands with
  | nil => exact Nat.le_refl 0
  | cons summand rest ih =>
    have split : sumOf here lookup Value.relative (summand :: rest) =
        signed summand.negated (summand.term.meaning here lookup).relative +
          sumOf here lookup Value.relative rest := by
      simp [sumOf]
    rw [split, List.length_cons]
    rcases single summand.term with isZero | isOne
    · rw [isZero]
      cases summand.negated <;> simp [signed] <;> omega
    · rw [isOne]
      cases summand.negated <;> simp [signed] <;> omega

/-- **An expression means its signed sum.** A text is read exactly if it is an optional sign and
terms with one sign between each two. Where names stand for numbers, addresses and imports, the
value of the expression is the sum of its summands, and it has no value exactly if there is a reason
for it, which is the error. The count of addresses stays within 32 bits. -/
theorem sum_exact (text : String) :
    (∀ expr, parse text = .ok expr ↔ expr.text = text ∧ Spelled text.toList expr.summands) ∧
      ∀ expr, parse text = .ok expr → expr.summands.length < 2 ^ 31 →
        ∀ here lookup, (∀ name value, lookup name = some value → value.IsAtom) →
          (∀ value, expr.eval here lookup = .ok value ↔ Sums here lookup expr.summands value) ∧
          (∀ error, expr.eval here lookup = .error error → Fails here lookup expr error) ∧
          (∀ error, Fails here lookup expr error → ∀ value, expr.eval here lookup ≠ .ok value) ∧
          ∀ front, front <+: expr.summands →
            -2 ^ 31 ≤ sumOf here lookup Value.relative front ∧
              sumOf here lookup Value.relative front < 2 ^ 31 := by
  refine ⟨fun expr => parse_eq_ok_iff, fun expr _ short here lookup atoms => ?_⟩
  refine ⟨fun value => eval_eq_ok_iff_sums, fun error => fails_of_eval, ?_, ?_⟩
  · intro error fails value evaluated
    exact (sums_of_eval evaluated).not_fails fails
  · intro front isPart
    have count := natAbs_sumOf_relative_le here atoms front
    have shorter := isPart.length_le
    omega

/-- A number is subtracted from the address of an import and another one is added. -/
theorem sum_exact_offset :
    ∃ expr, parse "-2+RDREC+0x10" = .ok expr ∧ ∀ here,
      Sums here (fun name => if name = "RDREC" then some (.imported name) else none)
        expr.summands ⟨14, 0, some "RDREC"⟩ := by
  obtain ⟨grammar, evaluates⟩ := sum_exact "-2+RDREC+0x10"
  have decimal : Term.Spells ['2'] (.number 2) :=
    .number (.decimal ⟨by decide, forall_mem_of_all (by decide), rfl⟩) (by decide)
  have name : Term.Spells ['R', 'D', 'R', 'E', 'C'] (.symbol "RDREC") :=
    .symbol (by decide) (forall_mem_of_all (by decide))
  have hexadecimal : Term.Spells ['0', 'x', '1', '0'] (.number 16) :=
    .number (.marked rfl ⟨by decide, forall_mem_of_all (by decide), rfl⟩) (by decide)
  have characters : "-2+RDREC+0x10".toList =
      sign true :: (['2'] ++ sign false :: (['R', 'D', 'R', 'E', 'C'] ++ sign false ::
        ['0', 'x', '1', '0'])) := by
    decide +kernel
  have spelled : Spelled "-2+RDREC+0x10".toList
      [⟨true, .number 2⟩, ⟨false, .symbol "RDREC"⟩, ⟨false, .number 16⟩] := by
    rw [characters]
    exact .signed (.next decimal (.next name (.last hexadecimal)))
  have parsed := (grammar ⟨_, _⟩).mpr ⟨rfl, spelled⟩
  refine ⟨_, parsed, fun here => ?_⟩
  have atoms : ∀ name value,
      (if name = "RDREC" then some (Value.imported name) else none) = some value →
        value.IsAtom := by
    intro name value isName
    split at isName
    · cases isName
      exact .imported name
    · cases isName
  exact ((evaluates _ parsed (by decide) here _ atoms).1 _).mp rfl

end Expr

end Sicxe
