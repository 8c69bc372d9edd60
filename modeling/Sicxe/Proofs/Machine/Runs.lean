import Sicxe.Proofs.Machine.Status

/-!
# Runs in parts

A run that nothing stops is a chain of steps, and what its observer is shown is this chain. So the
observer has no part in where the run leads (`Machine.runFreely_eq`), and a run can be interrupted
at its limit and taken up again.

* `Machine.runFreely_map`: the same run with two observers, one of which sees what the other
  gathers.
* `Machine.shown`: the executed instructions, each with the machine after it.
* `Machine.Steps`, `Machine.Ends`: a chain of steps, and why no further one is made.
* `Machine.run_steps`: a run makes all steps up to its end.
* `Machine.stepMany_eq`: so does making the steps one by one.
* `Machine.run_add`: **two runs in succession are one run** with the sum of their limits.
-/

namespace Sicxe

namespace Machine

variable {machine next after : Machine} {step : Step} {error : MachineError}
variable {σ τ : Type} {observe : Machine → Step → σ → σ} {observed : σ} {limit : Nat}

/-- What comes of a run that nothing stops, as it was observed. -/
abbrev runFreely (observe : Machine → Step → σ → σ) (limit : Nat) (machine : Machine)
    (observed : σ) : Finished σ :=
  machine.runWith (fun _ => false) observe limit observed

/-- The instructions that a run executes, each with the machine after it, as an observer is shown
them. -/
def shown (machine : Machine) (limit : Nat) : List (Machine × Step) :=
  (machine.runFreely (fun machine step seen => seen ++ [(machine, step)]) limit []).observed

theorem run_eq (machine : Machine) (limit : Nat) :
    machine.run limit = machine.runFreely (fun _ _ _ => ()) limit () := rfl

/-- What an observer makes of the instructions that it is shown. -/
def gather (observe : Machine → Step → σ → σ) (observed : σ) (shown : List (Machine × Step)) : σ :=
  shown.foldl (fun observed seen => observe seen.1 seen.2 observed) observed

/-! ### One step of a run -/

theorem runFreely_halted (halted : machine.halted = true) :
    machine.runFreely observe limit observed = ⟨machine, observed, .ok .halted⟩ := by
  unfold runFreely runWith
  rw [if_pos halted]

theorem runFreely_zero (running : machine.halted = false) :
    machine.runFreely observe 0 observed = ⟨machine, observed, .ok .stepLimit⟩ := by
  unfold runFreely runWith
  simp only [running, Bool.false_eq_true, if_false]

theorem runFreely_ok (running : machine.halted = false)
    (stepped : machine.step = (next, .ok step)) :
    machine.runFreely observe (limit + 1) observed =
      next.runFreely observe limit (observe next step observed) := by
  rw [runFreely, runWith]
  simp only [running, stepped, Bool.false_eq_true, if_false]

theorem runFreely_error (running : machine.halted = false)
    (stepped : machine.step = (after, .error error)) :
    machine.runFreely observe (limit + 1) observed = ⟨after, observed, .error error⟩ := by
  rw [runFreely, runWith]
  simp only [running, stepped, Bool.false_eq_true, if_false]

/-- A step succeeds or fails. -/
theorem exists_step (machine : Machine) :
    (∃ next step, machine.step = (next, .ok step)) ∨
      ∃ after error, machine.step = (after, .error error) := by
  obtain ⟨next, result⟩ := machine.step
  cases result with
  | ok step => exact .inl ⟨next, step, rfl⟩
  | error error => exact .inr ⟨next, error, rfl⟩

/-- What holds of a run by its first step holds of every run. -/
theorem runFreely_cases {motive : Machine → Nat → Prop}
    (halted : ∀ machine limit, machine.halted = true → motive machine limit)
    (zero : ∀ machine, machine.halted = false → motive machine 0)
    (error : ∀ machine limit after error, machine.halted = false →
      machine.step = (after, .error error) → motive machine (limit + 1))
    (ok : ∀ machine limit next step, machine.halted = false →
      machine.step = (next, .ok step) → motive next limit → motive machine (limit + 1))
    (machine : Machine) (limit : Nat) : motive machine limit := by
  induction limit generalizing machine with
  | zero =>
    cases isHalted : machine.halted with
    | true => exact halted machine 0 isHalted
    | false => exact zero machine isHalted
  | succ limit ih =>
    cases isHalted : machine.halted with
    | true => exact halted machine (limit + 1) isHalted
    | false =>
      rcases machine.exists_step with ⟨next, step, stepped⟩ | ⟨after, reason, stepped⟩
      · exact ok machine limit next step isHalted stepped (ih next)
      · exact error machine limit after reason isHalted stepped

/-! ### Observers -/

/-- What comes of a run, seen in another way. -/
def Finished.map (view : σ → τ) (finished : Finished σ) : Finished τ :=
  ⟨finished.machine, view finished.observed, finished.result⟩

/-- **An observer has no part in a run**: what one observer gathers can be seen from what another
one does. -/
theorem runFreely_map (observe : Machine → Step → σ → σ) (other : Machine → Step → τ → τ)
    (view : σ → τ) (same : ∀ machine step observed,
      view (observe machine step observed) = other machine step (view observed))
    (machine : Machine) (limit : Nat) (observed : σ) :
    machine.runFreely other limit (view observed) =
      (machine.runFreely observe limit observed).map view := by
  induction machine, limit using runFreely_cases generalizing observed with
  | halted machine limit halted =>
    rw [runFreely_halted halted, runFreely_halted halted]
    rfl
  | zero machine running =>
    rw [runFreely_zero running, runFreely_zero running]
    rfl
  | error machine limit after error running stepped =>
    rw [runFreely_error running stepped, runFreely_error running stepped]
    rfl
  | ok machine limit next step running stepped ih =>
    rw [runFreely_ok running stepped, runFreely_ok running stepped, ← same, ih]

/-- **A run is what the plain run is, with what the observer makes of the instructions shown.** -/
theorem runFreely_eq (observe : Machine → Step → σ → σ) (machine : Machine) (limit : Nat)
    (observed : σ) :
    machine.runFreely observe limit observed =
      ⟨(machine.run limit).machine, gather observe observed (machine.shown limit),
        (machine.run limit).result⟩ := by
  have plain := runFreely_map observe (fun _ _ _ => ()) (fun _ => ()) (fun _ _ _ => rfl) machine
    limit observed
  have gathered := runFreely_map (fun machine step seen => seen ++ [(machine, step)]) observe
    (gather observe observed) (fun machine step seen => List.foldl_append) machine limit []
  have machines :
      (machine.run limit).machine = (machine.runFreely observe limit observed).machine :=
    congrArg Finished.machine plain
  have results :
      (machine.run limit).result = (machine.runFreely observe limit observed).result :=
    congrArg Finished.result plain
  have seen : (machine.runFreely observe limit observed).observed =
      gather observe observed (machine.shown limit) := congrArg Finished.observed gathered
  rw [machines, results, ← seen]

/-- What was gathered before comes before what is shown. -/
theorem gather_pairs (before shown : List (Machine × Step)) :
    gather (fun machine step seen => seen ++ [(machine, step)]) before shown = before ++ shown := by
  induction shown generalizing before with
  | nil => exact (List.append_nil before).symm
  | cons seen rest ih =>
    calc gather _ before (seen :: rest)
        = gather _ (before ++ [seen]) rest := rfl
      _ = before ++ seen :: rest := by rw [ih, List.append_assoc, List.singleton_append]

theorem shown_eq (machine : Machine) (limit : Nat) (before : List (Machine × Step)) :
    (machine.runFreely (fun machine step seen => seen ++ [(machine, step)]) limit
      before).observed = before ++ machine.shown limit := by
  rw [runFreely_eq, gather_pairs]

theorem shown_halted (halted : machine.halted = true) : machine.shown limit = [] := by
  rw [shown, runFreely_halted halted]

theorem shown_zero (running : machine.halted = false) : machine.shown 0 = [] := by
  rw [shown, runFreely_zero running]

theorem shown_error (running : machine.halted = false)
    (stepped : machine.step = (after, .error error)) : machine.shown (limit + 1) = [] := by
  rw [shown, runFreely_error running stepped]

theorem shown_ok (running : machine.halted = false) (stepped : machine.step = (next, .ok step)) :
    machine.shown (limit + 1) = (next, step) :: next.shown limit := by
  rw [shown, runFreely_ok running stepped, shown_eq]
  rfl

/-! ### Chains of steps -/

/-- Instructions are executed one after another without an error. The list has each of them with the
machine after it. -/
inductive Steps : Machine → List (Machine × Step) → Machine → Prop
  | nil (machine : Machine) : Steps machine [] machine
  | cons {machine next last : Machine} {step : Step} {rest : List (Machine × Step)}
      (stepped : machine.step = (next, .ok step)) (later : Steps next rest last) :
      Steps machine ((next, step) :: rest) last

/-- Why no further instruction is executed after the machine `last` was reached, when `room` more
are allowed, with the machine afterwards and the result of the run. -/
inductive Ends (last : Machine) (room : Nat) : Machine → Except MachineError Outcome → Prop
  | halted (halted : last.halted = true) : Ends last room last (.ok .halted)
  | limit (running : last.halted = false) (full : room = 0) : Ends last room last (.ok .stepLimit)
  | failed {after : Machine} {error : MachineError} (running : last.halted = false)
      (more : 0 < room) (stepped : last.step = (after, .error error)) :
      Ends last room after (.error error)

/-- **A run makes steps until the machine has halted, a step fails, or the limit is reached.** -/
theorem run_steps (machine : Machine) (limit : Nat) :
    (machine.shown limit).length ≤ limit ∧ ∃ last, Steps machine (machine.shown limit) last ∧
      Ends last (limit - (machine.shown limit).length) (machine.run limit).machine
        (machine.run limit).result := by
  rw [run_eq]
  induction machine, limit using runFreely_cases with
  | halted machine limit halted =>
    rw [shown_halted halted, runFreely_halted halted]
    exact ⟨Nat.zero_le _, machine, .nil machine, .halted halted⟩
  | zero machine running =>
    rw [shown_zero running, runFreely_zero running]
    exact ⟨Nat.zero_le _, machine, .nil machine, .limit running rfl⟩
  | error machine limit after error running stepped =>
    rw [shown_error running stepped, runFreely_error running stepped]
    exact ⟨Nat.zero_le _, machine, .nil machine, .failed running (Nat.succ_pos _) stepped⟩
  | ok machine limit next step running stepped ih =>
    obtain ⟨short, last, steps, ends⟩ := ih
    rw [shown_ok running stepped, runFreely_ok running stepped, List.length_cons,
      Nat.add_sub_add_right]
    exact ⟨Nat.succ_le_succ short, last, .cons stepped steps, ends⟩

/-- **Making the steps one by one comes to the run**, but that it goes on to the step that finds the
machine halted. -/
theorem stepMany_eq (machine : Machine) (limit : Nat) :
    (machine.stepMany limit).1 = (machine.run limit).machine ∧
      (machine.stepMany limit).2.filterMap Except.toOption =
        (machine.shown limit).map Prod.snd := by
  rw [run_eq]
  induction machine, limit using runFreely_cases with
  | halted machine limit halted =>
    rw [shown_halted halted, runFreely_halted halted]
    cases limit with
    | zero => exact ⟨rfl, rfl⟩
    | succ limit =>
      have same := step_cases machine
      unfold stepMany
      generalize machine.step = result at same
      cases same with
      | faulted | stopped => exact ⟨rfl, rfl⟩
      | executed _ running | failed _ running => cases halted.symm.trans running
  | zero machine running =>
    rw [shown_zero running, runFreely_zero running]
    exact ⟨rfl, rfl⟩
  | error machine limit after error running stepped =>
    rw [shown_error running stepped, runFreely_error running stepped, stepMany, stepped]
    exact ⟨rfl, rfl⟩
  | ok machine limit next step running stepped ih =>
    obtain ⟨sameMachine, sameSteps⟩ := ih
    rw [shown_ok running stepped, runFreely_ok running stepped, stepMany, stepped]
    exact ⟨sameMachine, congrArg (step :: ·) sameSteps⟩

/-! ### Runs in succession -/

/-- A run that ended without an error can be taken up again, whoever observes it. -/
theorem runFreely_add {outcome : Outcome} (observe : Machine → Step → σ → σ) (machine : Machine)
    (first second : Nat) (observed : σ)
    (finished : (machine.runFreely observe first observed).result = .ok outcome) :
    (machine.runFreely observe first observed).machine.runFreely observe second
        (machine.runFreely observe first observed).observed =
      machine.runFreely observe (first + second) observed := by
  induction machine, first using runFreely_cases generalizing observed with
  | halted machine first halted =>
    rw [runFreely_halted halted, runFreely_halted halted, runFreely_halted halted]
  | zero machine running => rw [runFreely_zero running, Nat.zero_add]
  | error machine first after error running stepped =>
    rw [runFreely_error running stepped] at finished
    cases finished
  | ok machine first next step running stepped ih =>
    rw [runFreely_ok running stepped] at finished ⊢
    have sum : first + 1 + second = first + second + 1 := by omega
    rw [sum, runFreely_ok running stepped]
    exact ih _ finished

/-- **Runs compose.** A run that ends without an error and a second run from where it ended lead to
the same machine and the same result as one run with the sum of the limits, and an observer is shown
the instructions of the first run and then those of the second. In every run, any observer is shown
the same instructions. These are the steps from the given machine up to the first one that has
halted or whose step fails, but no more than the limit; the run ends for that reason, and making as
many steps one by one leads to the same machine with the same successful steps. -/
theorem run_add (machine : Machine) (first second : Nat) :
    (∀ outcome, (machine.run first).result = .ok outcome →
      let middle := (machine.run first).machine
      (middle.run second).machine = (machine.run (first + second)).machine ∧
        (middle.run second).result = (machine.run (first + second)).result ∧
        machine.shown first ++ middle.shown second = machine.shown (first + second)) ∧
    (∀ (σ : Type) (observe : Machine → Step → σ → σ) (observed : σ),
      machine.runWith (fun _ => false) observe first observed =
        ⟨(machine.run first).machine,
          (machine.shown first).foldl (fun observed seen => observe seen.1 seen.2 observed)
            observed,
          (machine.run first).result⟩) ∧
    ((machine.shown first).length ≤ first ∧ ∃ last, Steps machine (machine.shown first) last ∧
      Ends last (first - (machine.shown first).length) (machine.run first).machine
        (machine.run first).result) ∧
    (machine.stepMany first).1 = (machine.run first).machine ∧
      (machine.stepMany first).2.filterMap Except.toOption =
        (machine.shown first).map Prod.snd := by
  refine ⟨fun outcome finished => ?_, fun σ observe observed => runFreely_eq observe machine first
    observed, run_steps machine first, stepMany_eq machine first⟩
  have plain := runFreely_add (fun _ _ _ => ()) machine first second () finished
  have finishedShown : (machine.runFreely (fun machine step seen => seen ++ [(machine, step)]) first
      []).result = .ok outcome := by
    rw [runFreely_eq]
    exact finished
  have together := congrArg Finished.observed
    (runFreely_add (fun machine step seen => seen ++ [(machine, step)]) machine first second []
      finishedShown)
  rw [runFreely_eq _ machine first, shown_eq, gather_pairs, List.nil_append] at together
  exact ⟨congrArg Finished.machine plain, congrArg Finished.result plain, together⟩

end Machine

end Sicxe
