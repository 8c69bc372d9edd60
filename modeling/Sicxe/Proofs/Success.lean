/-!
# Success and failure of composed steps

A composed step succeeds when each of its parts does. `bind_eq_ok_iff` opens one composition,
`ite_ok_eq_ok_iff` a check, and `foldlM_cons_eq_ok_iff` the first step of a fold.
`bind_eq_error_iff` and `foldlM_eq_error_iff` say which part a failure comes from.
-/

namespace Sicxe

variable {ε α β : Type}

theorem bind_eq_ok_iff {first : Except ε α} {next : α → Except ε β} {result : β} :
    (first >>= next) = .ok result ↔ ∃ value, first = .ok value ∧ next value = .ok result := by
  cases first with
  | error error =>
    constructor
    · exact fun impossible => by cases impossible
    · rintro ⟨_, impossible, _⟩
      cases impossible
  | ok value =>
    constructor
    · exact fun succeeded => ⟨value, rfl, succeeded⟩
    · rintro ⟨_, same, succeeded⟩
      cases same
      exact succeeded

/-- A composition fails where its first part fails, or where the part after it does. -/
theorem bind_eq_error_iff {first : Except ε α} {next : α → Except ε β} {error : ε} :
    (first >>= next) = .error error ↔
      first = .error error ∨ ∃ value, first = .ok value ∧ next value = .error error := by
  cases first with
  | error reason =>
    constructor
    · exact fun failed => .inl (congrArg Except.error (Except.error.inj failed))
    · rintro (same | ⟨_, impossible, _⟩)
      · exact congrArg Except.error (Except.error.inj same)
      · cases impossible
  | ok value =>
    constructor
    · exact fun failed => .inr ⟨value, rfl, failed⟩
    · rintro (impossible | ⟨_, same, failed⟩)
      · cases impossible
      · cases same
        exact failed

theorem map_eq_ok_iff {first : Except ε α} {change : α → β} {result : β} :
    first.map change = .ok result ↔ ∃ value, first = .ok value ∧ change value = result := by
  cases first with
  | error error =>
    constructor
    · exact fun impossible => by cases impossible
    · rintro ⟨_, impossible, _⟩
      cases impossible
  | ok value =>
    constructor
    · exact fun succeeded => ⟨value, rfl, Except.ok.inj succeeded⟩
    · rintro ⟨_, same, rfl⟩
      cases same
      rfl

/-- A checked value is a success exactly if the check holds. -/
theorem ite_ok_eq_ok_iff {condition : Prop} [Decidable condition] {error : ε} {value result : α} :
    (if condition then Except.ok value else .error error) = .ok result ↔
      condition ∧ result = value := by
  split
  · rename_i holds
    rw [Except.ok.injEq, and_iff_right holds, eq_comm]
  · rename_i fails
    simp only [reduceCtorEq, fails, false_and]

theorem pure_eq_ok_iff {value result : α} :
    (pure value : Except ε α) = .ok result ↔ value = result :=
  ⟨Except.ok.inj, congrArg Except.ok⟩

theorem foldlM_nil_eq_ok_iff {step : β → α → Except ε β} {start result : β} :
    ([] : List α).foldlM step start = .ok result ↔ start = result :=
  pure_eq_ok_iff

theorem foldlM_cons_eq_ok_iff {step : β → α → Except ε β} {start result : β} {head : α}
    {rest : List α} :
    (head :: rest).foldlM step start = .ok result ↔
      ∃ next, step start head = .ok next ∧ rest.foldlM step next = .ok result := by
  rw [List.foldlM_cons, bind_eq_ok_iff]

/-- **A fold fails at the first step that fails.** -/
theorem foldlM_eq_error_iff {step : β → α → Except ε β} {start : β} {items : List α} {error : ε} :
    items.foldlM step start = .error error ↔
      ∃ before item after middle, items = before ++ item :: after ∧
        before.foldlM step start = .ok middle ∧ step middle item = .error error := by
  constructor
  · induction items generalizing start with
    | nil => exact fun failed => by cases failed
    | cons head rest ih =>
      rw [List.foldlM_cons, bind_eq_error_iff]
      rintro (failed | ⟨next, first, failed⟩)
      · exact ⟨[], head, rest, start, rfl, rfl, failed⟩
      · obtain ⟨before, item, after, middle, rfl, run, refused⟩ := ih failed
        exact ⟨head :: before, item, after, middle, rfl,
          foldlM_cons_eq_ok_iff.mpr ⟨next, first, run⟩, refused⟩
  · rintro ⟨before, item, after, middle, rfl, run, refused⟩
    rw [List.foldlM_append, run]
    show List.foldlM step middle (item :: after) = _
    rw [List.foldlM_cons, refused]
    rfl

theorem ok_of_toOption {outcome : Except ε α} {result : α}
    (found : outcome.toOption = some result) : outcome = .ok result := by
  cases outcome with
  | error error => cases found
  | ok value => exact congrArg Except.ok (Option.some.inj found)

/-- What has a part of a result has a result with that part. -/
theorem exists_ok_of_map {outcome : Except ε α} {part : α → β} {result : β}
    (found : (outcome.map part).toOption = some result) :
    ∃ value, outcome = .ok value ∧ part value = result :=
  map_eq_ok_iff.mp (ok_of_toOption found)

/-- What has a result is a success. -/
theorem exists_ok_of_isSome {outcome : Except ε α} (found : outcome.toOption.isSome = true) :
    ∃ result, outcome = .ok result := by
  cases outcome with
  | error error => cases found
  | ok result => exact ⟨result, rfl⟩

/-- What holds of a result can be decided if it can be decided of every value. -/
instance instDecidableForallOk {outcome : Except ε α} {property : α → Prop}
    [DecidablePred property] : Decidable (∀ result, outcome = .ok result → property result) :=
  match outcome with
  | .error _ => isTrue nofun
  | .ok result => decidable_of_iff (property result)
      ⟨fun holds _ same => Except.ok.inj same ▸ holds, fun all => all result rfl⟩

/-- The error of a failure. -/
def failure? : Except ε α → Option ε
  | .error error => some error
  | .ok _ => none

theorem error_of_failure? {outcome : Except ε α} {error : ε}
    (found : failure? outcome = some error) : outcome = .error error := by
  cases outcome with
  | error reason => exact congrArg Except.error (Option.some.inj found)
  | ok value => cases found

end Sicxe
