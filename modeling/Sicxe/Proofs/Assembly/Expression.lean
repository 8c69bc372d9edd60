import Sicxe.Assembly.Expr
import Mathlib.Tactic.Ring

/-!
# The value of an expression

* `Expr.addTo_cases`: what one more summand adds.
* `Expr.external_of_mem`: an expression that contains an import is an offset from it.
* `Expr.eval_of_find`: a value without an import stays when more names become known.
* `Value.moved`: what a value is in the program moved by some distance. `Expr.eval_moved`: an
  expression has the moved value where the line and all names moved.
-/

namespace Sicxe

namespace Value

/-- The value in the program moved by `distance`, which every address of the program moves by. -/
def moved (distance : Int) (value : Value) : Value :=
  { value with constant := value.constant + value.relative * distance }

/-- **The distance between two values stays under a move if they contain the same number of
addresses of the program**, and under no other move but that by 0. -/
theorem sub_moved_iff (first second : Value) (distance : Int) :
    (first.moved distance).constant - (second.moved distance).constant =
        first.constant - second.constant ↔
      distance = 0 ∨ first.relative = second.relative := by
  have difference : (first.moved distance).constant - (second.moved distance).constant =
      first.constant - second.constant + (first.relative - second.relative) * distance := by
    simp only [moved]
    ring
  rw [difference, add_eq_left, mul_eq_zero, sub_eq_zero, or_comm]

end Value

namespace Expr

variable {text name : String} {here there : Nat} {lookup other : String → Option Value}
variable {sum value next : Value} {negated : Bool} {summands : List Summand} {expr : Expr}

/-- **A sum adds constants, addresses and imports**, and no second import comes in. -/
theorem addTo_cases (added : addTo text sum negated value = .ok next) :
    (value.external = none ∨ negated = false ∧ sum.external = none) ∧
      next = ⟨if negated then sum.constant - value.constant else sum.constant + value.constant,
        if negated then sum.relative - value.relative else sum.relative + value.relative,
        value.external.or sum.external⟩ := by
  unfold addTo at added
  split at added
  · cases added
  · rename_i allowed
    dsimp only at added
    generalize (if negated = true then sum.constant - value.constant else
      sum.constant + value.constant) = constant at added
    split at added
    · cases added
      refine ⟨?_, rfl⟩
      cases isImport : value.external with
      | none => exact Or.inl rfl
      | some symbol =>
        rw [isImport] at allowed
        simpa using allowed
    · cases added

/-- A sum goes on with the sum behind its first summand. -/
theorem evalFrom_cons_eq_ok_iff {summand : Summand} {rest : List Summand} :
    evalFrom text here lookup sum (summand :: rest) = .ok value ↔
      ∃ found next, summand.term.value here lookup = .ok found ∧
        addTo text sum summand.negated found = .ok next ∧
          evalFrom text here lookup next rest = .ok value := by
  rw [evalFrom]
  cases summand.term.value here lookup with
  | error error => simp
  | ok found =>
    cases added : addTo text sum summand.negated found with
    | error error => simp [added]
    | ok next => simp [added]

/-- A sum is refused at its first summand or behind it. -/
theorem evalFrom_cons_eq_error_iff {summand : Summand} {rest : List Summand}
    {error : AssemblyError} :
    evalFrom text here lookup sum (summand :: rest) = .error error ↔
      summand.term.value here lookup = .error error ∨
        ∃ found, summand.term.value here lookup = .ok found ∧
          (addTo text sum summand.negated found = .error error ∨
            ∃ next, addTo text sum summand.negated found = .ok next ∧
              evalFrom text here lookup next rest = .error error) := by
  rw [evalFrom]
  cases summand.term.value here lookup with
  | error reason => simp
  | ok found =>
    cases added : addTo text sum summand.negated found with
    | error reason => simp [added]
    | ok next => simp [added]

/-- An expression has the sum of its summands as its value, which does not mix an import with
addresses of the program. -/
theorem eval_eq_ok_iff : expr.eval here lookup = .ok value ↔
    evalFrom expr.text here lookup {} expr.summands = .ok value ∧
      (value.external = none ∨ value.relative = 0) := by
  unfold eval
  cases summed : evalFrom expr.text here lookup {} expr.summands with
  | error error => simp only [reduceCtorEq, false_and]
  | ok sum =>
    dsimp only
    split
    · rename_i mixed
      simp only [Bool.and_eq_true, Option.isSome_iff_ne_none, bne_iff_ne] at mixed
      simp only [reduceCtorEq, Except.ok.injEq, false_iff, not_and, not_or]
      rintro rfl
      exact mixed
    · rename_i unmixed
      simp only [Bool.and_eq_true, Option.isSome_iff_ne_none, bne_iff_ne, not_and_or,
        Decidable.not_not] at unmixed
      simp only [Except.ok.injEq, iff_self_and]
      rintro rfl
      exact unmixed

/-! ### Imports in an expression -/

/-- The import of a sum stays. -/
theorem external_kept (isImport : sum.external = some name)
    (evaluated : evalFrom text here lookup sum summands = .ok value) :
    value.external = some name := by
  induction summands generalizing sum with
  | nil =>
    cases evaluated
    exact isImport
  | cons summand rest ih =>
    obtain ⟨found, next, _, added, evaluated⟩ := evalFrom_cons_eq_ok_iff.mp evaluated
    obtain ⟨alone, rfl⟩ := addTo_cases added
    refine ih ?_ evaluated
    rcases alone with isLocal | ⟨_, impossible⟩
    · simp only [isLocal, isImport, Option.none_or]
    · cases isImport.symm.trans impossible

theorem external_of_mem_summands (isImport : lookup name = some (.imported name))
    (occurs : ⟨negated, .symbol name⟩ ∈ summands)
    (evaluated : evalFrom text here lookup sum summands = .ok value) :
    value.external = some name := by
  induction summands generalizing sum with
  | nil => cases occurs
  | cons summand rest ih =>
    obtain ⟨found, next, isValue, added, evaluated⟩ := evalFrom_cons_eq_ok_iff.mp evaluated
    rcases List.mem_cons.mp occurs with rfl | later
    · simp only [Term.value, isImport] at isValue
      cases isValue
      obtain ⟨_, rfl⟩ := addTo_cases added
      exact external_kept rfl evaluated
    · exact ih later evaluated

/-- **An expression that contains an import is an offset from it.** -/
theorem external_of_mem (isImport : lookup name = some (.imported name))
    (occurs : name ∈ expr.symbols) (evaluated : expr.eval here lookup = .ok value) :
    value.external = some name := by
  obtain ⟨⟨negated, term⟩, inExpr, isName⟩ := List.mem_filterMap.mp occurs
  have isSymbol : term = .symbol name := by
    cases term with
    | here => cases isName
    | number => cases isName
    | symbol other => rw [Option.some.inj isName]
  subst isSymbol
  exact external_of_mem_summands isImport inExpr (eval_eq_ok_iff.mp evaluated).1

/-! ### More names -/

theorem evalFrom_of_find
    (find : ∀ name value, lookup name = some value → value.external = none →
      other name = some value)
    (isLocal : value.external = none)
    (evaluated : evalFrom text here lookup sum summands = .ok value) :
    evalFrom text here other sum summands = .ok value := by
  induction summands generalizing sum with
  | nil => exact evaluated
  | cons summand rest ih =>
    obtain ⟨found, next, isValue, added, evaluated⟩ := evalFrom_cons_eq_ok_iff.mp evaluated
    -- An import would stay to the end.
    have foundLocal : found.external = none := by
      cases isImport : found.external with
      | none => rfl
      | some symbol =>
        obtain ⟨_, rfl⟩ := addTo_cases added
        cases isLocal.symm.trans (external_kept (by rw [isImport]; rfl) evaluated)
    have stays : summand.term.value here other = .ok found := by
      obtain ⟨negated, term⟩ := summand
      cases term with
      | here => exact isValue
      | number => exact isValue
      | symbol name =>
        simp only [Term.value] at isValue ⊢
        split at isValue
        · rename_i isFound
          cases isValue
          rw [find name found isFound foundLocal]
        · cases isValue
    exact evalFrom_cons_eq_ok_iff.mpr ⟨found, next, stays, added, ih evaluated⟩

/-- **A value without an import stays when more names become known.** -/
theorem eval_of_find
    (find : ∀ name value, lookup name = some value → value.external = none →
      other name = some value)
    (isLocal : value.external = none) (evaluated : expr.eval here lookup = .ok value) :
    expr.eval here other = .ok value := by
  obtain ⟨summed, unmixed⟩ := eval_eq_ok_iff.mp evaluated
  exact eval_eq_ok_iff.mpr ⟨evalFrom_of_find find isLocal summed, unmixed⟩

/-! ### Moved programs -/

section Moved

variable {distance : Int} {moved : Value}

theorem value_moved (lookups : ∀ name, other name = (lookup name).map (Value.moved distance))
    (line : (there : Int) = here + distance) (term : Term) :
    term.value there other = (term.value here lookup).map (Value.moved distance) := by
  cases term with
  | here => simp [Term.value, Value.address, Value.moved, Except.map, line]
  | number value => simp [Term.value, Value.absolute, Value.moved, Except.map]
  | symbol name =>
    simp only [Term.value, lookups]
    cases lookup name <;> rfl

/-- A sum moves with its summands. -/
theorem addTo_moved (added : addTo text sum negated value = .ok next)
    (addedMoved : addTo text (sum.moved distance) negated (value.moved distance) = .ok moved) :
    moved = next.moved distance := by
  obtain ⟨_, rfl⟩ := addTo_cases added
  obtain ⟨_, rfl⟩ := addTo_cases addedMoved
  cases negated <;> simp only [Value.moved, Value.mk.injEq, if_true, if_false,
    Bool.false_eq_true, and_true] <;> ring

theorem evalFrom_moved (lookups : ∀ name, other name = (lookup name).map (Value.moved distance))
    (line : (there : Int) = here + distance)
    (evaluated : evalFrom text here lookup sum summands = .ok value)
    (evaluatedMoved : evalFrom text there other (sum.moved distance) summands = .ok moved) :
    moved = value.moved distance := by
  induction summands generalizing sum with
  | nil =>
    cases evaluated
    cases evaluatedMoved
    rfl
  | cons summand rest ih =>
    obtain ⟨found, next, isValue, added, evaluated⟩ := evalFrom_cons_eq_ok_iff.mp evaluated
    obtain ⟨foundMoved, nextMoved, isMoved, addedMoved, evaluatedMoved⟩ :=
      evalFrom_cons_eq_ok_iff.mp evaluatedMoved
    rw [value_moved lookups line, isValue] at isMoved
    cases isMoved
    rw [addTo_moved added addedMoved] at evaluatedMoved
    exact ih evaluated evaluatedMoved

/-- **An expression has the moved value where the line and all names moved**, if it has a value
there. -/
theorem eval_moved (lookups : ∀ name, other name = (lookup name).map (Value.moved distance))
    (line : (there : Int) = here + distance) (evaluated : expr.eval here lookup = .ok value)
    (evaluatedMoved : expr.eval there other = .ok moved) : moved = value.moved distance := by
  have nothing : Value.moved distance {} = {} := by
    simp only [Value.moved, Int.zero_mul, Int.add_zero]
  refine evalFrom_moved lookups line (eval_eq_ok_iff.mp evaluated).1 ?_
  rw [nothing]
  exact (eval_eq_ok_iff.mp evaluatedMoved).1

end Moved

end Expr

end Sicxe
