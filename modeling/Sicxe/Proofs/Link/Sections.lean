import Sicxe.Link.Section
import Sicxe.Proofs.Success

/-!
# The sections of modules

* `Section.atStarts_eq_ok_iff`: sections are accepted at their starts when their limits are
  addresses and no neighbours overlap.
* `Section.pairwise_disjoint_of_atStarts`: sections that are accepted share no address.
* `Section.atStarts_of_disjoint`: sections that share no address are accepted if their limits are
  addresses.
* `Section.min?_span`, `Section.max?_span`: the span reaches from the lowest begin to the highest
  limit.
-/

namespace Sicxe

namespace Section

/-- An address belongs to a section. -/
def Contains (range : Section) (address : Nat) : Prop :=
  range.begin ≤ address ∧ address < range.limit

/-- Two sections share no address. -/
def Disjoint (first second : Section) : Prop :=
  ∀ address, first.Contains address → ¬ second.Contains address

theorem Disjoint.symm {first second : Section} (disjoint : Disjoint first second) :
    Disjoint second first :=
  fun address inSecond inFirst => disjoint address inFirst inSecond

/-! ### Modules with their sections -/

theorem length_ofStarts (modules : List Object) : (ofStarts modules).length = modules.length := by
  rw [ofStarts, List.length_map, List.length_zipIdx]

theorem map_bounds_ofStarts (modules : List Object) :
    (ofStarts modules).map (fun range => (range.begin, range.limit)) =
      modules.map fun object => (object.start.toNat, object.limit) := by
  rw [ofStarts, List.map_map]
  refine List.ext_getElem? fun index => ?_
  rw [List.getElem?_map, List.getElem?_map, List.getElem?_zipIdx, Option.map_map]
  rfl

theorem map_begin_ofStarts (modules : List Object) :
    (ofStarts modules).map Section.begin = modules.map fun object => object.start.toNat := by
  have firsts := congrArg (List.map Prod.fst) (map_bounds_ofStarts modules)
  rw [List.map_map, List.map_map] at firsts
  exact firsts

theorem map_limit_ofStarts (modules : List Object) :
    (ofStarts modules).map Section.limit = modules.map Object.limit := by
  have seconds := congrArg (List.map Prod.snd) (map_bounds_ofStarts modules)
  rw [List.map_map, List.map_map] at seconds
  exact seconds

/-- A module and its section, when every module is at its own start. -/
theorem of_mem_zip_ofStarts {modules : List Object} {object : Object} {range : Section}
    (member : (object, range) ∈ modules.zip (ofStarts modules)) :
    range.begin = object.start.toNat ∧ range.limit = object.limit := by
  obtain ⟨index, found⟩ := List.mem_iff_getElem?.mp member
  rw [List.getElem?_zip_eq_some] at found
  obtain ⟨atModule, atSection⟩ := found
  rw [ofStarts, List.getElem?_map, List.getElem?_zipIdx, atModule] at atSection
  have same : (⟨object.start.toNat, object.limit, object.displayName (0 + index)⟩ : Section) =
    range := Option.some.inj atSection
  rw [← same]
  exact ⟨rfl, rfl⟩

/-! ### Overlaps -/

/-- Sections in ascending order, one behind the other. -/
def Ascending (sections : List Section) : Prop :=
  sections.Pairwise fun first second => first.limit ≤ second.begin

/-- **Where no two neighbours overlap in a list ordered by begins, no two sections do.** -/
theorem ascending_of_firstOverlap? : ∀ {sections : List Section},
    sections.Pairwise (fun first second => first.begin ≤ second.begin) →
    (∀ range ∈ sections, range.begin < range.limit) → firstOverlap? sections = none →
    Ascending sections
  | [], _, _, _ => .nil
  | [_], _, _, _ => List.pairwise_singleton _ _
  | first :: second :: rest, ordered, nonempty, separate => by
    rw [firstOverlap?] at separate
    split at separate
    · cases separate
    · rename_i apart
      obtain ⟨fromFirst, ordered⟩ := List.pairwise_cons.mp ordered
      have ascending := ascending_of_firstOverlap? ordered
        (fun range member => nonempty range (List.mem_cons_of_mem _ member)) separate
      have begins := fromFirst second List.mem_cons_self
      have secondNonempty := nonempty second (List.mem_cons_of_mem _ List.mem_cons_self)
      have behind : first.limit ≤ second.begin := by
        simp only [overlaps, Bool.and_eq_true, decide_eq_true_eq] at apart
        omega
      refine List.pairwise_cons.mpr ⟨fun range member => ?_, ascending⟩
      rcases List.mem_cons.mp member with rfl | member
      · exact behind
      · have := (List.pairwise_cons.mp ascending).1 range member
        omega

/-- Sections in ascending order do not overlap. -/
theorem firstOverlap?_of_ascending : ∀ {sections : List Section}, Ascending sections →
    firstOverlap? sections = none
  | [], _ => rfl
  | [_], _ => rfl
  | first :: second :: rest, ascending => by
    obtain ⟨fromFirst, ascending⟩ := List.pairwise_cons.mp ascending
    have behind := fromFirst second List.mem_cons_self
    have apart : first.overlaps second = false := by
      rw [overlaps, Bool.and_eq_false_iff]
      right
      exact decide_eq_false (by omega)
    rw [firstOverlap?, apart, if_neg Bool.false_ne_true]
    exact firstOverlap?_of_ascending ascending

/-- The order in which the sections that have addresses are compared. -/
def sorted (sections : List Section) : List Section :=
  (sections.filter fun range => !range.isEmpty).mergeSort
    fun first second => first.begin ≤ second.begin

theorem sorted_ordered (sections : List Section) :
    (sorted sections).Pairwise fun first second => first.begin ≤ second.begin := by
  refine (List.pairwise_mergeSort ?_ ?_ _).imp fun ordered => of_decide_eq_true ordered
  · intro first second third one two
    simp only [decide_eq_true_eq] at one two ⊢
    omega
  · intro first second
    simp only [Bool.or_eq_true, decide_eq_true_eq]
    omega

theorem checked_eq_ok_iff {sections made : List Section} :
    checked sections = .ok made ↔ (∀ range ∈ sections, range.Addressable) ∧ made = sections :=
  ite_ok_eq_ok_iff

/-- The limits of modules are addresses exactly if those of their sections are. -/
theorem addressable_ofStarts_iff {modules : List Object} :
    (∀ range ∈ ofStarts modules, range.Addressable) ↔
      ∀ object ∈ modules, object.limit < Numeral.wordBound :=
  calc _ ↔ ∀ limit ∈ (ofStarts modules).map Section.limit, limit < Numeral.wordBound :=
        List.forall_mem_map.symm
    _ ↔ ∀ limit ∈ modules.map Object.limit, limit < Numeral.wordBound := by
        rw [map_limit_ofStarts]
    _ ↔ _ := List.forall_mem_map

theorem atStarts_eq_ok_iff {modules : List Object} {sections : List Section} :
    atStarts modules = .ok sections ↔
      (∀ object ∈ modules, object.limit < Numeral.wordBound) ∧
        firstOverlap? (sorted (ofStarts modules)) = none ∧ sections = ofStarts modules := by
  rw [atStarts, bind_eq_ok_iff, ← addressable_ofStarts_iff]
  simp only [checked_eq_ok_iff]
  constructor
  · rintro ⟨_, ⟨addressable, rfl⟩, accepted⟩
    refine ⟨addressable, ?_⟩
    split at accepted
    · cases accepted
    · rename_i separate
      exact ⟨separate, (pure_eq_ok_iff.mp accepted).symm⟩
  · rintro ⟨addressable, separate, rfl⟩
    refine ⟨_, ⟨addressable, rfl⟩, ?_⟩
    unfold sorted at separate
    rw [separate]
    rfl

/-- The sections of modules end at or behind their begins. -/
theorem begin_le_limit_of_ofStarts {modules : List Object} :
    ∀ range ∈ ofStarts modules, range.begin ≤ range.limit := by
  intro range member
  obtain ⟨⟨object, position⟩, _, rfl⟩ := List.mem_map.mp member
  exact Nat.le_add_right _ _

theorem nonempty_of_mem_sorted {modules : List Object} :
    ∀ range ∈ sorted (ofStarts modules), range.begin < range.limit := by
  intro range member
  obtain ⟨member, notEmpty⟩ := List.mem_filter.mp (List.mem_mergeSort.mp member)
  have := begin_le_limit_of_ofStarts range member
  simp only [isEmpty, Bool.not_eq_true', beq_eq_false_iff_ne] at notEmpty
  omega

/-- **Sections that are accepted at their starts share no address.** -/
theorem pairwise_disjoint_of_atStarts {modules : List Object} {sections : List Section}
    (accepted : atStarts modules = .ok sections) : sections.Pairwise Disjoint := by
  obtain ⟨_, separate, rfl⟩ := atStarts_eq_ok_iff.mp accepted
  have ascending :=
    ascending_of_firstOverlap? (sorted_ordered _) nonempty_of_mem_sorted separate
  have sortedDisjoint : (sorted (ofStarts modules)).Pairwise Disjoint := by
    refine ascending.imp fun behind address inFirst inSecond => ?_
    unfold Contains at inFirst inSecond
    omega
  have filtered := ((List.mergeSort_perm _ _).pairwise_iff Disjoint.symm).mp sortedDisjoint
  refine (List.pairwise_filter.mp filtered).imp fun disjoint address inFirst inSecond => ?_
  have hasAddress : ∀ {range : Section}, range.Contains address → (!range.isEmpty) = true := by
    intro range inside
    unfold Contains at inside
    simp only [isEmpty, Bool.not_eq_true', beq_eq_false_iff_ne]
    omega
  exact disjoint (hasAddress inFirst) (hasAddress inSecond) address inFirst inSecond

/-- **Sections that share no address are accepted** if their limits are addresses. -/
theorem atStarts_of_disjoint {modules : List Object}
    (addressable : ∀ object ∈ modules, object.limit < Numeral.wordBound)
    (disjoint : (ofStarts modules).Pairwise Disjoint) :
    atStarts modules = .ok (ofStarts modules) := by
  have sortedDisjoint : (sorted (ofStarts modules)).Pairwise Disjoint :=
    ((List.mergeSort_perm _ _).pairwise_iff Disjoint.symm).mpr
      (disjoint.sublist List.filter_sublist)
  have ascending : Ascending (sorted (ofStarts modules)) := by
    refine ((sorted_ordered _).and sortedDisjoint).imp_of_mem fun _ second both => ?_
    obtain ⟨ordered, apart⟩ := both
    have nonempty := nonempty_of_mem_sorted _ second
    refine Nat.le_of_not_lt fun overlap => ?_
    exact apart _ ⟨ordered, overlap⟩ ⟨Nat.le_refl _, nonempty⟩
  exact atStarts_eq_ok_iff.mpr ⟨addressable, firstOverlap?_of_ascending ascending, rfl⟩

/-- Sections in ascending order are accepted. -/
theorem atStarts_of_ascending {modules : List Object}
    (addressable : ∀ object ∈ modules, object.limit < Numeral.wordBound)
    (ascending : Ascending (ofStarts modules)) :
    atStarts modules = .ok (ofStarts modules) := by
  refine atStarts_of_disjoint addressable (ascending.imp fun behind address inFirst inSecond => ?_)
  unfold Contains at inFirst inSecond
  omega

/-! ### The span -/

theorem min?_span {sections : List Section} (nonempty : sections ≠ []) :
    (sections.map Section.begin).min? = some (span sections).1 := by
  cases sections with
  | nil => exact absurd rfl nonempty
  | cons first rest => rw [List.map_cons, List.min?_cons', List.foldl_map, span]

theorem max?_span {sections : List Section} (nonempty : sections ≠ []) :
    (sections.map Section.limit).max? = some (span sections).2 := by
  cases sections with
  | nil => exact absurd rfl nonempty
  | cons first rest => rw [List.map_cons, List.max?_cons', List.foldl_map, span]

/-- Every section lies in the span. -/
theorem span_bounds {sections : List Section} {range : Section} (member : range ∈ sections) :
    (span sections).1 ≤ range.begin ∧ range.limit ≤ (span sections).2 := by
  have nonempty : sections ≠ [] := List.ne_nil_of_mem member
  exact ⟨(List.min?_eq_some_iff.mp (min?_span nonempty)).2 _ (List.mem_map_of_mem member),
    (List.max?_eq_some_iff.mp (max?_span nonempty)).2 _ (List.mem_map_of_mem member)⟩

end Section

end Sicxe
