import Sicxe.Proofs.Object.Fixups

/-!
# Changes that stay in a window

A copy into an image and a fix-up of one of its fields read and write some bytes of the image only.
What they do there does not depend on the other bytes, and so two of them with no byte in common
can be exchanged, whatever they compute.

* `Bytes.Confined`: a step that reads and writes the bytes of a window only.
* `Bytes.Confined.comp`, `Bytes.Confined.mono`: steps in one window make up a step in it, and a
  window can be taken larger.
* `Relocation.FixedBy.confined`: a run of fix-ups stays in every window that has all its fields.
* `Bytes.Confined.exchange`: **steps in windows without a common byte can be exchanged.**
-/

namespace Sicxe

namespace Bytes

/-- Two buffers have the same bytes in a window. -/
def AgreeOn (window : Nat → Prop) (first second : Array UInt8) : Prop :=
  ∀ index, window index → first[index]? = second[index]?

theorem AgreeOn.symm {window : Nat → Prop} {first second : Array UInt8}
    (agree : AgreeOn window first second) : AgreeOn window second first :=
  fun index inWindow => (agree index inWindow).symm

/-- A step from one buffer of `size` bytes to the next reads and writes the bytes of a window only:
it keeps the others, and it makes the same of buffers that agree in the window. -/
structure Confined (size : Nat) (window : Nat → Prop) (step : Array UInt8 → Array UInt8 → Prop) :
    Prop where
  size_eq : ∀ {buffer result}, buffer.size = size → step buffer result → result.size = size
  kept : ∀ {buffer result}, buffer.size = size → step buffer result →
    AgreeOn (fun index => ¬ window index) result buffer
  transfer : ∀ {buffer result other}, buffer.size = size → other.size = size →
    step buffer result → AgreeOn window other buffer →
    ∃ after, step other after ∧ AgreeOn window after result

namespace Confined

variable {size : Nat} {window larger : Nat → Prop}
variable {step next : Array UInt8 → Array UInt8 → Prop}

/-- A step that does nothing stays in every window. -/
theorem refl (size : Nat) (window : Nat → Prop) : Confined size window fun buffer result =>
    buffer = result where
  size_eq := fun fits same => same ▸ fits
  kept := fun _ same index _ => by rw [same]
  transfer := fun _ _ same agree => ⟨_, rfl, same ▸ agree⟩

/-- **A window can be taken larger.** -/
theorem mono (confined : Confined size window step)
    (inLarger : ∀ index, window index → larger index) : Confined size larger step where
  size_eq := confined.size_eq
  kept := fun fits made index outside =>
    confined.kept fits made index fun inWindow => outside (inLarger index inWindow)
  transfer := by
    intro buffer result other fits otherFits made agree
    obtain ⟨after, madeAfter, agreeAfter⟩ := confined.transfer fits otherFits made
      fun index inWindow => agree index (inLarger index inWindow)
    refine ⟨after, madeAfter, fun index inside => ?_⟩
    by_cases inWindow : window index
    · exact agreeAfter index inWindow
    · rw [confined.kept otherFits madeAfter index inWindow, agree index inside,
        confined.kept fits made index inWindow]

/-- **Two steps in one window make up a step in it.** -/
theorem comp (first : Confined size window step) (second : Confined size window next) :
    Confined size window fun buffer result =>
      ∃ middle, step buffer middle ∧ next middle result where
  size_eq := by
    rintro buffer result fits ⟨middle, made, madeNext⟩
    exact second.size_eq (first.size_eq fits made) madeNext
  kept := by
    rintro buffer result fits ⟨middle, made, madeNext⟩ index outside
    rw [second.kept (first.size_eq fits made) madeNext index outside,
      first.kept fits made index outside]
  transfer := by
    rintro buffer result other fits otherFits ⟨middle, made, madeNext⟩ agree
    obtain ⟨between, madeBetween, agreeBetween⟩ := first.transfer fits otherFits made agree
    obtain ⟨after, madeAfter, agreeAfter⟩ := second.transfer (first.size_eq fits made)
      (first.size_eq otherFits madeBetween) madeNext agreeBetween
    exact ⟨after, ⟨between, madeBetween, madeAfter⟩, agreeAfter⟩

/-- **Steps in windows without a common byte can be exchanged.** Each of them finds its own window
as if the other had not been made. -/
theorem exchange {other : Nat → Prop} (first : Confined size window step)
    (second : Confined size other next) (apart : ∀ index, window index → ¬ other index)
    {buffer middle result : Array UInt8} (fits : buffer.size = size)
    (made : step buffer middle) (madeNext : next middle result) :
    ∃ between, next buffer between ∧ step between result := by
  have middleFits := first.size_eq fits made
  have untouched : AgreeOn other buffer middle := fun index inOther =>
    (first.kept fits made index fun inWindow => apart index inWindow inOther).symm
  obtain ⟨between, madeBetween, agreeBetween⟩ :=
    second.transfer middleFits fits madeNext untouched
  have betweenFits := second.size_eq fits madeBetween
  have untouchedBetween : AgreeOn window between buffer := fun index inWindow =>
    second.kept fits madeBetween index (apart index inWindow)
  obtain ⟨after, madeAfter, agreeAfter⟩ :=
    first.transfer fits betweenFits made untouchedBetween
  have same : after = result := by
    refine Array.ext_getElem? fun index => ?_
    by_cases inWindow : window index
    · rw [agreeAfter index inWindow,
        second.kept middleFits madeNext index (apart index inWindow)]
    · rw [first.kept betweenFits madeAfter index inWindow]
      by_cases inOther : other index
      · exact agreeBetween index inOther
      · rw [second.kept fits madeBetween index inOther,
          second.kept middleFits madeNext index inOther, first.kept fits made index inWindow]
  exact ⟨between, madeBetween, same ▸ madeAfter⟩

/-- Writing some bytes stays where they are written. -/
theorem write {offset : Nat} {bytes : List UInt8} (inside : offset + bytes.length ≤ size) :
    Confined size (fun index => offset ≤ index ∧ index < offset + bytes.length)
      fun buffer result => Bytes.write buffer offset bytes = result where
  size_eq := by
    rintro buffer _ fits rfl
    rw [size_write, fits]
  kept := by
    rintro buffer _ fits rfl index outside
    rw [getElem?_write _ _ _ (fits ▸ inside), if_neg outside]
  transfer := by
    rintro buffer _ other fits otherFits rfl _
    refine ⟨_, rfl, fun index inWindow => ?_⟩
    rw [getElem?_write _ _ _ (otherFits ▸ inside), getElem?_write _ _ _ (fits ▸ inside),
      if_pos inWindow, if_pos inWindow]

end Confined

end Bytes

namespace Relocation

open Bytes (AgreeOn Confined)

variable {address : String → Option UInt32} {origin size : Nat} {window : Nat → Prop}

/-- A field reads the same where its bytes are the same. -/
theorem raw_of_agreeOn {record : Relocation} {buffer other : Array UInt8}
    (agree : AgreeOn record.Covers other buffer) : record.raw other = record.raw buffer := by
  unfold raw
  rw [Bytes.slice_congr fun index bound => agree _ ⟨Nat.le_add_right _ _, by omega⟩]

/-- **A fix-up stays in its field.** -/
theorem confined_apply (record : Relocation) (target : UInt32) :
    Confined size record.Covers fun buffer result =>
      record.apply buffer target.toNat origin = .ok result where
  size_eq := fun fits applied => (size_apply applied).trans fits
  kept := by
    intro buffer result fits applied index outside
    obtain ⟨inside, value, _, rfl⟩ := apply_eq_ok_iff.mp applied
    exact getElem?_put inside outside
  transfer := by
    intro buffer result other fits otherFits applied agree
    obtain ⟨inside, value, resolved, rfl⟩ := apply_eq_ok_iff.mp applied
    have same := raw_of_agreeOn agree
    have otherInside : record.inside other.size := by rwa [otherFits, ← fits]
    refine ⟨record.put other value, apply_eq_ok_iff.mpr ⟨otherInside, value, ?_, rfl⟩, ?_⟩
    · rwa [field, same]
    · intro index covers
      have room := inside.2.2
      unfold Covers at covers
      rw [put, put, same, Bytes.getElem?_write, Bytes.getElem?_write, length_put_bytes,
        if_pos covers, if_pos covers]
      · rwa [length_put_bytes]
      · rwa [length_put_bytes, otherFits, ← fits]

/-- **A run of fix-ups stays in every window that has all its fields.** -/
theorem FixedBy.confined {records : List Relocation}
    (covered : ∀ record ∈ records, ∀ index, record.Covers index → window index) :
    Confined size window (FixedBy address origin records) := by
  induction records with
  | nil =>
    have same : FixedBy address origin [] = fun buffer result => buffer = result := by
      funext buffer result
      exact propext nil_iff
    rw [same]
    exact .refl size window
  | cons record rest ih =>
    have split : FixedBy address origin (record :: rest) = fun buffer result =>
        ∃ middle, (∃ target, address record.symbol = some target ∧
          record.apply buffer target.toNat origin = .ok middle) ∧
            FixedBy address origin rest middle result := by
      funext buffer result
      exact propext cons_iff
    have covers := covered record List.mem_cons_self
    rw [split]
    refine .comp ?_ (ih fun other member => covered other (List.mem_cons_of_mem _ member))
    cases found : address record.symbol with
    | none => exact ⟨by simp, by simp, by simp⟩
    | some target =>
      simp only [Option.some.injEq, exists_eq_left']
      exact (record.confined_apply target).mono covers

end Relocation

end Sicxe
