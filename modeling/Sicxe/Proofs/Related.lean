import Sicxe.Proofs.Success

/-!
# Two runs side by side

`Related relation first second` says that the results of two computations are related whenever both
succeed. The rules follow the way computations are put together: `Related.bind` for one after
another, `Related.foldlM` for a loop over the same list.
-/

namespace Sicxe

variable {ε α β γ δ ι : Type}

/-- The results are related if both computations succeed. -/
def Related (relation : α → β → Prop) (first : Except ε α) (second : Except ε β) : Prop :=
  ∀ result other, first = .ok result → second = .ok other → relation result other

namespace Related

variable {relation : α → β → Prop} {after : γ → δ → Prop}

theorem ok {result : α} {other : β} (related : relation result other) :
    Related (ε := ε) relation (.ok result) (.ok other) := by
  rintro _ _ ⟨⟩ ⟨⟩
  exact related

theorem error_left {error : ε} {second : Except ε β} : Related relation (.error error) second := by
  rintro _ _ ⟨⟩

/-- **Related results are passed on.** -/
theorem bind {first : Except ε α} {second : Except ε β} {next : α → Except ε γ}
    {nextSecond : β → Except ε δ} (related : Related relation first second)
    (step : ∀ result other, relation result other →
      Related after (next result) (nextSecond other)) :
    Related after (first >>= next) (second >>= nextSecond) := by
  intro result other succeeded succeededSecond
  obtain ⟨middle, one, rest⟩ := bind_eq_ok_iff.mp succeeded
  obtain ⟨middleSecond, oneSecond, restSecond⟩ := bind_eq_ok_iff.mp succeededSecond
  exact step middle middleSecond (related _ _ one oneSecond) result other rest restSecond

/-- Related results are known to be the results of their runs. -/
theorem remember {first : Except ε α} {second : Except ε β}
    (related : Related relation first second) :
    Related (fun result other => relation result other ∧ first = .ok result ∧ second = .ok other)
      first second :=
  fun result other succeeded succeededSecond =>
    ⟨related result other succeeded succeededSecond, succeeded, succeededSecond⟩

/-- What two runs have computed in the same way is the same. -/
theorem same (first : Except ε α) : Related (· = ·) first first := by
  intro result other succeeded again
  exact Except.ok.inj (succeeded.symm.trans again)

/-- **A loop over the same list keeps what each step keeps.** -/
theorem foldlM {step : α → ι → Except ε α} {stepSecond : β → ι → Except ε β}
    (keeps : ∀ result other item, relation result other →
      Related relation (step result item) (stepSecond other item))
    {items : List ι} {start : α} {startSecond : β} (related : relation start startSecond) :
    Related relation (items.foldlM step start) (items.foldlM stepSecond startSecond) := by
  induction items generalizing start startSecond with
  | nil => exact ok related
  | cons item rest ih =>
    rw [List.foldlM_cons, List.foldlM_cons]
    exact (keeps start startSecond item related).bind fun _ _ next => ih next

end Related

end Sicxe
