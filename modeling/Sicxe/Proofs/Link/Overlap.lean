import Sicxe.Proofs.Link.Order

/-!
# Overlapping modules

Modules at their own starts are refused by looking at neighbours only, in the order in which they
begin. This finds every overlap, however many modules there are and however they nest.

* `Object.Overlapping`: two modules at different positions share an address, and
  `Object.overlapping_iff` says that this is what `Object.ApartFrom` excludes.
* `Object.overlapping_filter`: modules without bytes have no part in it.
* `Section.atStarts_overflow_iff`: a module that ends at no address has no section.
* `Section.firstOverlap?_cases`: neighbours that overlap are two sections of the list.
* `Section.atStarts_cases`: any other error names two modules that share the address it gives.
* `Section.atStarts_exact`: **modules that end at addresses are refused exactly if two of them
  overlap**, and otherwise each has its own section.
* `Object.link_absolute_overflow`: a module that ends at no address stops absolute linking.
-/

namespace Sicxe

/-- A list has no two elements of some kind exactly if it has none at two positions. -/
theorem not_pairwise_iff {α : Type} {relation : α → α → Prop} {items : List α}
    (symmetric : ∀ {one other : α}, relation one other → relation other one) :
    ¬ items.Pairwise relation ↔ ∃ (first second : Nat) (one other : α), first ≠ second ∧
      items[first]? = some one ∧ items[second]? = some other ∧ ¬ relation one other := by
  constructor
  · intro related
    rw [List.pairwise_iff_getElem] at related
    push Not at related
    obtain ⟨first, second, firstInside, secondInside, before, unrelated⟩ := related
    exact ⟨first, second, _, _, Nat.ne_of_lt before, List.getElem?_eq_getElem firstInside,
      List.getElem?_eq_getElem secondInside, unrelated⟩
  · rintro ⟨first, second, one, other, different, atFirst, atSecond, unrelated⟩ related
    obtain ⟨firstInside, rfl⟩ := List.getElem?_eq_some_iff.mp atFirst
    obtain ⟨secondInside, rfl⟩ := List.getElem?_eq_some_iff.mp atSecond
    rw [List.pairwise_iff_getElem] at related
    rcases Nat.lt_or_gt_of_ne different with before | behind
    · exact unrelated (related first second firstInside secondInside before)
    · exact unrelated (symmetric (related second first secondInside firstInside behind))

namespace Object

variable {modules : List Object} {object : Object} {address : Nat}

/-- Two modules at different positions share an address; then neither of them is empty. -/
def Overlapping (modules : List Object) : Prop :=
  ∃ (first second : Nat) (one other : Object) (address : Nat), first ≠ second ∧
    modules[first]? = some one ∧ modules[second]? = some other ∧
    0 < one.length ∧ 0 < other.length ∧ one.Contains address ∧ other.Contains address

theorem length_pos_of_contains (inside : object.Contains address) : 0 < object.length := by
  have limit : object.limit = object.start.toNat + object.length := rfl
  unfold Contains at inside
  omega

theorem overlapping_iff : Overlapping modules ↔ ¬ modules.Pairwise ApartFrom := by
  rw [not_pairwise_iff ApartFrom.symm]
  constructor
  · rintro ⟨first, second, one, other, address, different, atFirst, atSecond, _, _, inOne, inOther⟩
    exact ⟨first, second, one, other, different, atFirst, atSecond,
      fun apart => apart address inOne inOther⟩
  · rintro ⟨first, second, one, other, different, atFirst, atSecond, together⟩
    unfold ApartFrom at together
    push Not at together
    obtain ⟨address, inOne, inOther⟩ := together
    exact ⟨first, second, one, other, address, different, atFirst, atSecond,
      length_pos_of_contains inOne, length_pos_of_contains inOther, inOne, inOther⟩

/-- **Empty modules neither cause an overlap nor hide one.** -/
theorem overlapping_filter :
    Overlapping (modules.filter fun object => 0 < object.length) ↔ Overlapping modules := by
  rw [overlapping_iff, overlapping_iff, not_iff_not, List.pairwise_filter]
  have same : (fun one other : Object => decide (0 < one.length) = true →
      decide (0 < other.length) = true → one.ApartFrom other) = ApartFrom := by
    funext one other
    refine propext ⟨fun apart address inOne inOther => ?_, fun apart _ _ => apart⟩
    exact apart (decide_eq_true (length_pos_of_contains inOne))
      (decide_eq_true (length_pos_of_contains inOther)) address inOne inOther
  rw [same]

/-- An empty module ends at its start, which is an address. -/
theorem addressable_filter :
    (∀ object ∈ modules.filter fun object => 0 < object.length, object.limit < Numeral.wordBound) ↔
      ∀ object ∈ modules, object.limit < Numeral.wordBound := by
  constructor
  · intro addressable object member
    by_cases empty : object.length = 0
    · rw [limit, empty]
      exact object.start.toNat_lt
    · refine addressable object (List.mem_filter.mpr ⟨member, ?_⟩)
      exact decide_eq_true (Nat.pos_of_ne_zero empty)
  · exact fun addressable object member => addressable object (List.mem_of_mem_filter member)

end Object

namespace Section

variable {modules : List Object} {sections : List Section} {first second : Section}

/-- Neighbours that overlap stand in the list one behind the other. -/
theorem firstOverlap?_cases (found : firstOverlap? sections = some (first, second)) :
    [first, second].Sublist sections ∧ first.overlaps second = true := by
  fun_induction firstOverlap? sections with
  | case1 one other rest overlap =>
    cases found
    exact ⟨.cons_cons _ (.cons_cons _ (List.nil_sublist _)), overlap⟩
  | case2 one other rest _ ih =>
    obtain ⟨later, overlap⟩ := ih found
    exact ⟨later.cons _, overlap⟩
  | case3 => cases found

/-- Two sections in their order of comparison come from two positions. -/
theorem exists_positions_of_sorted (pair : [first, second].Sublist (sorted sections)) :
    ∃ i j : Nat, i ≠ j ∧ sections[i]? = some first ∧ sections[j]? = some second := by
  -- Sorting keeps no positions, but it keeps whether a symmetric relation holds throughout.
  let other : Section → Section → Prop := fun one two =>
    ¬ (one = first ∧ two = second ∨ one = second ∧ two = first)
  have symmetric : ∀ {one two : Section}, other one two → other two one := by
    intro one two differs same
    exact differs (same.symm.imp And.symm And.symm)
  have found : ¬ sections.Pairwise other := by
    intro related
    have inOrder : (sorted sections).Pairwise other :=
      ((List.mergeSort_perm _ _).pairwise_iff symmetric).mpr (related.sublist List.filter_sublist)
    exact List.pairwise_iff_forall_sublist.mp inOrder pair (.inl ⟨rfl, rfl⟩)
  obtain ⟨i, j, one, two, different, atFirst, atSecond, same⟩ :=
    (not_pairwise_iff symmetric).mp found
  rcases not_not.mp same with ⟨rfl, rfl⟩ | ⟨rfl, rfl⟩
  · exact ⟨i, j, different, atFirst, atSecond⟩
  · exact ⟨j, i, different.symm, atSecond, atFirst⟩

/-- The section of a module at its own start. -/
theorem getElem?_ofStarts (modules : List Object) (position : Nat) :
    (ofStarts modules)[position]? = modules[position]?.map fun object =>
      ⟨object.start.toNat, object.limit, object.displayName position⟩ := by
  rw [ofStarts, List.getElem?_map, List.getElem?_zipIdx, Option.map_map]
  simp only [Function.comp_def, Nat.zero_add]

/-- The sections of modules that end at addresses are made as they are. -/
theorem checked_ofStarts (addressable : ∀ object ∈ modules, object.limit < Numeral.wordBound) :
    checked (ofStarts modules) = .ok (ofStarts modules) :=
  checked_eq_ok_iff.mpr ⟨addressable_ofStarts_iff.mpr addressable, rfl⟩

/-- **Modules that are refused overlap where the error says**, if all of them end at addresses. -/
theorem atStarts_cases {error : LinkError}
    (addressable : ∀ object ∈ modules, object.limit < Numeral.wordBound)
    (refused : atStarts modules = .error error) :
    ∃ (first second : Nat) (one other : Object), first ≠ second ∧
      modules[first]? = some one ∧ modules[second]? = some other ∧
      error = .overlap (one.displayName first) (other.displayName second) other.start.toNat ∧
      one.Contains other.start.toNat ∧ other.Contains other.start.toNat := by
  rw [atStarts, checked_ofStarts addressable] at refused
  dsimp only [bind, Except.bind] at refused
  split at refused
  · rename_i one two found
    cases refused
    obtain ⟨pair, overlap⟩ := firstOverlap?_cases found
    have ordered := List.pairwise_iff_forall_sublist.mp (sorted_ordered (ofStarts modules)) pair
    have nonempty := nonempty_of_mem_sorted two (pair.subset (by simp))
    obtain ⟨i, j, different, atFirst, atSecond⟩ := exists_positions_of_sorted pair
    rw [getElem?_ofStarts, Option.map_eq_some_iff] at atFirst atSecond
    obtain ⟨first, isFirst, rfl⟩ := atFirst
    obtain ⟨second, isSecond, rfl⟩ := atSecond
    simp only [overlaps, Bool.and_eq_true, decide_eq_true_eq] at overlap
    exact ⟨i, j, first, second, different, isFirst, isSecond, rfl, ⟨ordered, overlap.2⟩,
      Nat.le_refl _, nonempty⟩
  · cases refused

/-- Modules are refused if one of them ends at no address or if two of them overlap. -/
theorem refused_iff : (∃ error, atStarts modules = .error error) ↔
    ¬ ((∀ object ∈ modules, object.limit < Numeral.wordBound) ∧ ¬ Object.Overlapping modules) := by
  rw [Object.overlapping_iff, not_not, ← Object.atStarts_accepted_iff]
  constructor
  · rintro ⟨error, refused⟩ accepted
    cases refused.symm.trans accepted
  · intro notAccepted
    cases outcome : atStarts modules with
    | error error => exact ⟨error, rfl⟩
    | ok sections =>
      obtain ⟨_, _, rfl⟩ := atStarts_eq_ok_iff.mp outcome
      exact absurd outcome notAccepted

/-- **A module that ends at no address stops the linker** before any two modules are compared. -/
theorem atStarts_overflow_iff : atStarts modules = .error .overflow ↔
    ∃ object ∈ modules, Numeral.wordBound ≤ object.limit := by
  constructor
  · intro stopped
    by_contra within
    have addressable : ∀ object ∈ modules, object.limit < Numeral.wordBound :=
      fun object member => Nat.lt_of_not_le fun beyond => within ⟨object, member, beyond⟩
    obtain ⟨_, _, _, _, _, _, _, impossible, _⟩ := atStarts_cases addressable stopped
    cases impossible
  · rintro ⟨object, member, beyond⟩
    have notAddressable : ¬ ∀ range ∈ ofStarts modules, range.Addressable := by
      rw [addressable_ofStarts_iff]
      exact fun addressable => Nat.not_le_of_lt (addressable object member) beyond
    rw [atStarts, checked, if_neg notAddressable]
    rfl

/-- **Modules at their own starts are refused exactly if two of them share an address**, given that
all of them end at addresses. The error names two such modules and an address that they share.
Otherwise there is one section for each module, in the order of the modules, from the start of the
module to its end. A module that ends at no address stops the linker. Leaving out the empty modules
changes nothing about being refused. -/
theorem atStarts_exact (modules : List Object) :
    ((∀ object ∈ modules, object.start.toNat + object.length < Numeral.wordBound) →
      ((∃ first second address, atStarts modules = .error (.overlap first second address)) ↔
        Object.Overlapping modules) ∧
      (∀ error, atStarts modules = .error error →
        ∃ (first second : Nat) (one other : Object), first ≠ second ∧
          modules[first]? = some one ∧ modules[second]? = some other ∧
          error = .overlap (one.displayName first) (other.displayName second) other.start.toNat ∧
          one.Contains other.start.toNat ∧ other.Contains other.start.toNat) ∧
      (¬ Object.Overlapping modules → ∃ sections, atStarts modules = .ok sections ∧
        sections.length = modules.length ∧
        ∀ (position : Nat) (object : Object), modules[position]? = some object →
          ∃ range, sections[position]? = some range ∧ range.begin = object.start.toNat ∧
            range.limit = object.start.toNat + object.length)) ∧
    (atStarts modules = .error .overflow ↔
      ∃ object ∈ modules, Numeral.wordBound ≤ object.start.toNat + object.length) ∧
    ((∃ error, atStarts (modules.filter fun object => 0 < object.length) = .error error) ↔
      ∃ error, atStarts modules = .error error) := by
  refine ⟨fun bounded => ?_, atStarts_overflow_iff, ?_⟩
  · have addressable : ∀ object ∈ modules, object.limit < Numeral.wordBound := bounded
    refine ⟨?_, fun error refused => atStarts_cases addressable refused, fun apart => ?_⟩
    · have refusedFor : (∃ error, atStarts modules = .error error) ↔
          Object.Overlapping modules := by
        rw [refused_iff, and_iff_right addressable, not_not]
      rw [← refusedFor]
      constructor
      · rintro ⟨first, second, address, refused⟩
        exact ⟨_, refused⟩
      · rintro ⟨error, refused⟩
        obtain ⟨_, _, _, _, _, _, _, rfl, _⟩ := atStarts_cases addressable refused
        exact ⟨_, _, _, refused⟩
    · rw [Object.overlapping_iff, not_not] at apart
      refine ⟨ofStarts modules, Object.atStarts_accepted_iff.mpr ⟨addressable, apart⟩,
        length_ofStarts modules, fun position object found => ?_⟩
      exact ⟨_, by rw [getElem?_ofStarts, found, Option.map_some], rfl, rfl⟩
  · rw [refused_iff, refused_iff, Object.overlapping_filter, Object.addressable_filter]

/-- A module given twice overlaps with itself. -/
theorem atStarts_exact_called_twice :
    (∀ object ∈ [Object.calledModule, Object.calledModule],
      object.start.toNat + object.length < Numeral.wordBound) ∧
    ∃ first second address, atStarts [Object.calledModule, Object.calledModule] =
      .error (.overlap first second address) := by
  have bounded : ∀ object ∈ [Object.calledModule, Object.calledModule],
      object.start.toNat + object.length < Numeral.wordBound := by decide
  refine ⟨bounded, ((atStarts_exact _).1 bounded).1.mpr ?_⟩
  exact ⟨0, 1, Object.calledModule, Object.calledModule, 16, by decide, rfl, rfl, by decide,
    by decide, ⟨by decide, by decide⟩, by decide, by decide⟩

end Section

/-- **A module that ends at no address stops absolute linking**, wherever it stands in the list. -/
theorem Object.link_absolute_overflow {modules : List Object}
    (beyond : ∃ object ∈ modules, Numeral.wordBound ≤ object.limit) :
    link modules .absolute = .error .overflow := by
  have nonempty : modules ≠ [] := by
    obtain ⟨object, member, _⟩ := beyond
    exact List.ne_nil_of_mem member
  obtain ⟨first, rest, rfl⟩ := List.exists_cons_of_ne_nil nonempty
  show linkAbsolute first rest = _
  rw [linkAbsolute, Section.atStarts_overflow_iff.mpr beyond]
  rfl

end Sicxe
