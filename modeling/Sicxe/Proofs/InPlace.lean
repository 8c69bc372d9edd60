import Sicxe.Proofs.Success

/-!
# Changes in place

An operation on a store can be written as a function to the changed store, or as a computation that
changes the store as it goes and may fail when it has changed a part of it. `InPlace.settle` says
what the second one should come to: the changed store, or an error and the store as it was.

* `InPlace.inspect_bind`: how a computation that checks first comes to this.
* `InPlace.after`: the store after some operations, some of which may have failed.
-/

namespace Sicxe

/-- A computation that changes a state as it goes. What it has changed before it fails stays
changed. -/
abbrev InPlace (ε σ α : Type) : Type :=
  ExceptT ε (StateM σ) α

namespace InPlace

variable {ε σ α ι : Type}

/-- Reads from the state. -/
def inspect (reading : σ → Except ε α) : InPlace ε σ α :=
  fun state => (reading state, state)

/-- Changes the state. -/
def update (change : σ → σ) : InPlace ε σ Unit :=
  fun state => (.ok (), change state)

/-- A changed state, or an error and the state as it was. -/
def settle (state : σ) : Except ε σ → Except ε Unit × σ
  | .ok next => (.ok (), next)
  | .error error => (.error error, state)

/-- **What is only read before a failure has changed nothing.** -/
theorem inspect_bind {reading : σ → Except ε α} {rest : α → InPlace ε σ Unit} {state : σ}
    {effect : α → Except ε σ}
    (settles : ∀ value, reading state = .ok value → rest value state = settle state (effect value)) :
    (inspect reading >>= rest) state = settle state (reading state >>= effect) := by
  show (StateT.bind (inspect reading) (ExceptT.bindCont rest) : StateM σ _) state = _
  cases outcome : reading state with
  | ok value =>
    rw [StateT.bind, inspect, outcome]
    exact settles value outcome
  | error error =>
    rw [StateT.bind, inspect, outcome]
    rfl

/-- The state after some operations. One that fails is passed over. -/
def after (apply : σ → ι → Except ε σ) (state : σ) (operations : List ι) : σ :=
  operations.foldl (fun state operation => (settle state (apply state operation)).2) state

theorem after_concat (apply : σ → ι → Except ε σ) (state : σ) (operations : List ι)
    (operation : ι) :
    after apply state (operations ++ [operation]) =
      (settle (after apply state operations) (apply (after apply state operations) operation)).2 := by
  rw [after, List.foldl_append]
  rfl

end InPlace

end Sicxe
