import Sicxe.Proofs.Link.Frame
import Sicxe.Proofs.Object.Confined

/-!
# The order of the modules

Absolute linking goes through its modules in the order in which they are given: it sorts their
sections, collects their exports one by one, and copies and fixes up their code in turn. Where
every field lies inside its own module, none of this depends on the order. Modules that share no
address change windows of the image without a common byte, so that neighbours can be exchanged
(`Bytes.Confined.exchange`), and exchanges of neighbours lead from any order to any other.

* `Runs.perm`: steps that can be exchanged lead to the same in every order.
* `Object.Linkable`: what it takes to link modules at their starts, and the image that they make.
* `Object.Linkable.perm`: it does not depend on the order.
* `Object.link_absolute_perm`: **modules in another order are linked to the same program**, but for
  its name and its entry.
-/

namespace Sicxe

/-! ### Steps in any order -/

section Runs

variable {α σ : Type} {step : α → σ → σ → Prop} {good : σ → Prop}

/-- One step after another, one for each element of a list, leads from a state to another. -/
inductive Runs (step : α → σ → σ → Prop) : List α → σ → σ → Prop
  | nil (state : σ) : Runs step [] state state
  | cons {head : α} {rest : List α} {state next last : σ} (first : step head state next)
      (later : Runs step rest next last) : Runs step (head :: rest) state last

theorem runs_nil_iff {state last : σ} : Runs step [] state last ↔ state = last := by
  constructor
  · intro run
    cases run
    rfl
  · rintro rfl
    exact .nil state

theorem runs_cons_iff {head : α} {rest : List α} {state last : σ} :
    Runs step (head :: rest) state last ↔
      ∃ next, step head state next ∧ Runs step rest next last := by
  constructor
  · intro run
    cases run with
    | cons first later => exact ⟨_, first, later⟩
  · rintro ⟨next, first, later⟩
    exact .cons first later

/-- The steps of two elements lead from a good state to the same states in either order. -/
def Exchangeable (good : σ → Prop) (step : α → σ → σ → Prop) (first second : α) : Prop :=
  ∀ state last, good state →
    ((∃ middle, step first state middle ∧ step second middle last) ↔
      ∃ middle, step second state middle ∧ step first middle last)

theorem Exchangeable.symm {first second : α} (exchangeable : Exchangeable good step first second) :
    Exchangeable good step second first :=
  fun state last isGood => (exchangeable state last isGood).symm

/-- **Steps that can be exchanged lead to the same in every order.** -/
theorem Runs.perm {elements others : List α}
    (keeps : ∀ element ∈ elements, ∀ state next, good state → step element state next → good next)
    (permuted : elements.Perm others)
    (exchangeable : elements.Pairwise (Exchangeable good step)) {state last : σ}
    (isGood : good state) (run : Runs step elements state last) : Runs step others state last := by
  induction permuted generalizing state with
  | nil => exact run
  | cons head _ ih =>
    obtain ⟨next, first, later⟩ := runs_cons_iff.mp run
    have nextGood := keeps _ List.mem_cons_self _ _ isGood first
    exact .cons first (ih (fun element member => keeps element (List.mem_cons_of_mem _ member))
      exchangeable.of_cons nextGood later)
  | swap second first rest =>
    obtain ⟨middle, one, run⟩ := runs_cons_iff.mp run
    obtain ⟨next, two, later⟩ := runs_cons_iff.mp run
    have neighbours := (List.pairwise_cons.mp exchangeable).1 _ List.mem_cons_self
    obtain ⟨between, twoFirst, oneSecond⟩ := (neighbours state next isGood).mp ⟨middle, one, two⟩
    exact .cons twoFirst (.cons oneSecond later)
  | trans first _ ihFirst ihSecond =>
    have middle := (first.pairwise_iff Exchangeable.symm).mp exchangeable
    exact ihSecond (fun element member => keeps element (first.mem_iff.mpr member)) middle isGood
      (ihFirst keeps exchangeable isGood run)

end Runs

namespace Object

open Relocation (FixedBy)
open Bytes (Confined)

variable {modules others : List Object} {object first linked : Object} {rest : List Object}
variable {start limit size : Nat} {code image result : Array UInt8}
variable {address : String → Option UInt32}

/-! ### Taking in one module -/

/-- An image that starts at `start` takes in a module at its own start and fixes it up. -/
def TakesIn (address : String → Option UInt32) (start : Nat) (object : Object)
    (image result : Array UInt8) : Prop :=
  FixedBy address start
    (object.relocations.map fun record => record.shifted (object.start.toNat - start))
    (Bytes.write image (object.start.toNat - start) object.code.toList) result

/-- An image takes in placed modules one after another, when each is at its own start. -/
theorem foldlM_placeInImage_runs {globals : SymbolTable} {placed : List PlacedObject}
    (begins : ∀ one ∈ placed, one.2.begin = one.1.start.toNat)
    (small : image.size ≤ Numeral.wordBound) :
    placed.foldlM (placeInImage globals start) image = .ok result ↔
      Runs (TakesIn globals.address? start) (placed.map Prod.fst) image result := by
  induction placed generalizing image with
  | nil => rw [foldlM_nil_eq_ok_iff, List.map_nil, runs_nil_iff]
  | cons one rest ih =>
    obtain ⟨begin, later⟩ := List.forall_mem_cons.mp begins
    rw [foldlM_cons_eq_ok_iff, List.map_cons, runs_cons_iff]
    simp only [placeInImage_eq_ok_iff small, TakesIn, begin]
    refine exists_congr fun next => and_congr_right fun run => ih later ?_
    rw [run.size_eq, Bytes.size_write]
    exact small

/-- The image of modules at their starts takes in one after another. -/
theorem foldlM_placeInImage_iff {globals : SymbolTable} (small : image.size ≤ Numeral.wordBound) :
    (atStarts modules).foldlM (placeInImage globals start) image = .ok result ↔
      Runs (TakesIn globals.address? start) modules image result := by
  have begins : ∀ one ∈ atStarts modules, one.2.begin = one.1.start.toNat :=
    fun one member => (Section.of_mem_zip_ofStarts member).1
  rw [foldlM_placeInImage_runs begins small, map_fst_atStarts]

/-- Every field of a module lies inside its code. -/
def FieldsInside (object : Object) : Prop :=
  ∀ record ∈ object.relocations, record.inside object.code.size

/-- **Taking in a module stays in the window of its addresses**, where its fields lie inside its
code. -/
theorem confined_takesIn (behind : start ≤ object.start.toNat)
    (room : object.limit ≤ start + size) (inside : object.FieldsInside) :
    Confined size (fun index => object.Contains (start + index))
      (TakesIn address start object) := by
  have limit : object.limit = object.start.toNat + object.code.size := rfl
  have length : object.code.toList.length = object.code.size := Array.length_toList
  have twoSteps : TakesIn address start object = fun image result =>
      ∃ copied, Bytes.write image (object.start.toNat - start) object.code.toList = copied ∧
        FixedBy address start
          (object.relocations.map fun record => record.shifted (object.start.toNat - start))
          copied result := by
    funext image result
    simp [TakesIn]
  rw [twoSteps]
  refine .comp ((Confined.write (by omega)).mono fun index written => ?_)
    (FixedBy.confined fun shifted member index covers => ?_)
  · unfold Contains
    omega
  · obtain ⟨record, isRecord, rfl⟩ := List.mem_map.mp member
    have bound := (inside record isRecord).2.2
    obtain ⟨least, greatest⟩ : record.offset + (object.start.toNat - start) ≤ index ∧
      index < record.offset + (object.start.toNat - start) + record.length := covers
    unfold Contains
    omega

/-! ### Linking at the starts -/

/-- Two modules share no address. -/
def ApartFrom (first second : Object) : Prop :=
  ∀ address, first.Contains address → ¬ second.Contains address

theorem ApartFrom.symm {second : Object} (apart : first.ApartFrom second) :
    second.ApartFrom first :=
  fun address inSecond inFirst => apart address inFirst inSecond

/-- Modules are accepted at their starts exactly if all end at addresses and no two share one. -/
theorem atStarts_accepted_iff :
    Section.atStarts modules = .ok (Section.ofStarts modules) ↔
      (∀ object ∈ modules, object.limit < Numeral.wordBound) ∧ modules.Pairwise ApartFrom := by
  constructor
  · intro accepted
    exact ⟨(Section.atStarts_eq_ok_iff.mp accepted).1, pairwise_apart_of_atStarts accepted⟩
  · rintro ⟨addressable, apart⟩
    refine Section.atStarts_of_disjoint addressable ?_
    let disjoint : Nat × Nat → Nat × Nat → Prop := fun first second => ∀ address,
      first.1 ≤ address ∧ address < first.2 → ¬ (second.1 ≤ address ∧ address < second.2)
    have bounds : (modules.map fun object => (object.start.toNat, object.limit)).Pairwise
        disjoint := List.pairwise_map.mpr apart
    rw [← Section.map_bounds_ofStarts] at bounds
    have separate := List.pairwise_map.mp bounds
    exact separate

/-- The exported symbols of modules at their own starts. -/
def ownExports (modules : List Object) : SymbolTable :=
  ⟨modules.flatMap fun object => object.symbols.exported⟩

/-- Modules can be linked at their starts to an image from `start` to `limit`: they end at
addresses and share none, export no name twice, export every name that one of them refers to, and
can be taken in and fixed up one after another. -/
structure Linkable (modules : List Object) (start limit : Nat) (code : Array UInt8) : Prop where
  addressable : ∀ object ∈ modules, object.limit < Numeral.wordBound
  apart : modules.Pairwise ApartFrom
  unique : (ownExports modules).names.Nodup
  resolved : ∀ object ∈ modules,
    ∀ name ∈ object.imports ++ object.relocations.map Relocation.symbol,
      (ownExports modules).contains name = true
  begins : (modules.map fun object => object.start.toNat).min? = some start
  ends : (modules.map Object.limit).max? = some limit
  built : Runs (TakesIn (ownExports modules).address? start) modules
    (Array.replicate (limit - start) 0) code

/-- The program of modules that were linked at their starts. -/
def programAtStarts (first : Object) (modules : List Object) (start : Nat) (code : Array UInt8) :
    Object where
  name := first.name
  start := UInt32.ofNat start
  entry := first.entry
  code
  symbols := ownExports modules
  fullyRelocated := true

/-- The image of modules that end at addresses has at most 2 ^ 32 bytes. -/
theorem size_image_le (start : Nat)
    (addressable : ∀ object ∈ modules, object.limit < Numeral.wordBound)
    (ends : (modules.map Object.limit).max? = some limit) :
    (Array.replicate (limit - start) (0 : UInt8)).size ≤ Numeral.wordBound := by
  obtain ⟨last, member, rfl⟩ := List.mem_map.mp (List.max?_eq_some_iff.mp ends).1
  have bound := addressable last member
  rw [Array.size_replicate]
  omega

/-- **Linking modules at their starts** makes their program when they are linkable. -/
theorem link_absolute_iff :
    link (first :: rest) .absolute = .ok linked ↔
      ∃ start limit code, Linkable (first :: rest) start limit code ∧
        linked = programAtStarts first (first :: rest) start code := by
  have nonempty := ofStarts_ne_nil (List.cons_ne_nil first rest)
  have isMin := Section.min?_span nonempty
  have isMax := Section.max?_span nonempty
  rw [Section.map_begin_ofStarts] at isMin
  rw [Section.map_limit_ofStarts] at isMax
  show linkAbsolute first rest = .ok linked ↔ _
  rw [linkAbsolute_eq_ok_iff]
  simp only [atStarts_accepted_iff, PlacedObject.globals_eq_ok_iff, flatMap_exports_atStarts,
    checkResolved_atStarts_iff]
  constructor
  · rintro ⟨globals, code, ⟨addressable, apart⟩, ⟨unique, rfl⟩, resolved, placed, rfl⟩
    have built := (foldlM_placeInImage_iff (size_image_le _ addressable isMax)).mp placed
    exact ⟨_, _, code, ⟨addressable, apart, unique, resolved, isMin, isMax, built⟩, rfl⟩
  · rintro ⟨start, limit, code, linkable, rfl⟩
    cases isMin.symm.trans linkable.begins
    cases isMax.symm.trans linkable.ends
    have placed :=
      (foldlM_placeInImage_iff (size_image_le _ linkable.addressable isMax)).mpr linkable.built
    exact ⟨_, code, ⟨linkable.addressable, linkable.apart⟩, ⟨linkable.unique, rfl⟩,
      linkable.resolved, placed, rfl⟩

/-- Modules make one image only. -/
theorem Linkable.unique_image {otherStart otherLimit : Nat} {otherCode : Array UInt8}
    (linkable : Linkable modules start limit code)
    (other : Linkable modules otherStart otherLimit otherCode) :
    start = otherStart ∧ code = otherCode := by
  cases linkable.begins.symm.trans other.begins
  cases linkable.ends.symm.trans other.ends
  have small := size_image_le start linkable.addressable linkable.ends
  have built := (foldlM_placeInImage_iff small).mpr linkable.built
  rw [(foldlM_placeInImage_iff small).mpr other.built] at built
  exact ⟨rfl, (Except.ok.inj built).symm⟩

/-! ### Another order -/

theorem ownExports_perm (permuted : others.Perm modules) :
    (ownExports others).symbols.Perm (ownExports modules).symbols :=
  permuted.flatMap_right _

theorem min?_perm {numbers others : List Nat} (permuted : others.Perm numbers) :
    others.min? = numbers.min? := by
  ext least
  simp only [List.min?_eq_some_iff, permuted.mem_iff]

theorem max?_perm {numbers others : List Nat} (permuted : others.Perm numbers) :
    others.max? = numbers.max? := by
  ext greatest
  simp only [List.max?_eq_some_iff, permuted.mem_iff]

/-- A linkable module lies in the image. -/
theorem Linkable.bounds (linkable : Linkable modules start limit code) (member : object ∈ modules) :
    start ≤ object.start.toNat ∧ object.limit ≤ start + (limit - start) := by
  have least := (List.min?_eq_some_iff.mp linkable.begins).2 _ (List.mem_map_of_mem member)
  have greatest := (List.max?_eq_some_iff.mp linkable.ends).2 _ (List.mem_map_of_mem member)
  have ordered : object.start.toNat ≤ object.limit := Nat.le_add_right _ _
  exact ⟨least, by omega⟩

/-- **Two linkable modules can be taken in in either order.** -/
theorem Linkable.exchangeable (linkable : Linkable modules start limit code)
    (inside : ∀ object ∈ modules, object.FieldsInside) :
    modules.Pairwise (Exchangeable (fun image => image.size = limit - start)
      (TakesIn (ownExports modules).address? start)) := by
  refine linkable.apart.imp_of_mem fun inFirst inSecond apart image result fits => ?_
  have one : ∀ {object}, object ∈ modules → Confined (limit - start)
      (fun index => object.Contains (start + index))
      (TakesIn (ownExports modules).address? start object) := fun member =>
    confined_takesIn (linkable.bounds member).1 (linkable.bounds member).2 (inside _ member)
  constructor
  · rintro ⟨middle, made, madeNext⟩
    exact (one inFirst).exchange (one inSecond) (fun index => apart _) fits made madeNext
  · rintro ⟨middle, made, madeNext⟩
    exact (one inSecond).exchange (one inFirst) (fun index => apart.symm _) fits made madeNext

/-- **What it takes to link modules does not depend on their order**, nor does the image that they
make. -/
theorem Linkable.perm (linkable : Linkable modules start limit code)
    (permuted : others.Perm modules) (inside : ∀ object ∈ modules, object.FieldsInside) :
    Linkable others start limit code := by
  have symbols := ownExports_perm permuted
  have sameAddress := SymbolTable.address?_perm linkable.unique symbols
  have sameNames : ∀ name, (ownExports others).contains name = true ↔
      (ownExports modules).contains name = true := fun name => by
    rw [SymbolTable.contains_iff_address?, SymbolTable.contains_iff_address?, sameAddress]
  have keeps : ∀ object ∈ modules, ∀ image next, image.size = limit - start →
      TakesIn (ownExports modules).address? start object image next → next.size = limit - start :=
    fun object member image next =>
      (confined_takesIn (linkable.bounds member).1 (linkable.bounds member).2
        (inside object member)).size_eq
  constructor
  · exact fun object member => linkable.addressable object (permuted.mem_iff.mp member)
  · exact (permuted.pairwise_iff ApartFrom.symm).mpr linkable.apart
  · exact (symbols.map Symbol.name).nodup_iff.mpr linkable.unique
  · intro object member name isReference
    exact (sameNames name).mpr
      (linkable.resolved object (permuted.mem_iff.mp member) name isReference)
  · rw [min?_perm (permuted.map fun object => object.start.toNat)]
    exact linkable.begins
  · rw [max?_perm (permuted.map Object.limit)]
    exact linkable.ends
  · rw [sameAddress]
    exact linkable.built.perm keeps permuted.symm (linkable.exchangeable inside)
      Array.size_replicate

/-- Two programs are the same but for their names, their entries and the order of their symbols. -/
structure SameImage (linked relinked : Object) : Prop where
  start : relinked.start = linked.start
  code : relinked.code = linked.code
  /-- The same symbols, each with the same address and the same flags. -/
  symbols : relinked.symbols.symbols.Perm linked.symbols.symbols
  imports : relinked.imports = linked.imports
  relocations : relinked.relocations = linked.relocations
  fullyRelocated : relinked.fullyRelocated = linked.fullyRelocated

/-- **The order of the modules does not matter to an absolute program.** Modules whose fields lie
inside their own code can be linked in every order or in none, and the programs are the same but
for what they take from the first module. A module that would end beyond the 32 bits of an address
stops the linker in every order. -/
theorem link_absolute_perm {modules others : List Object} (permuted : others.Perm modules)
    (inside : ∀ object ∈ modules, ∀ record ∈ object.relocations,
      record.inside object.code.size) :
    ((∃ linked, link modules .absolute = .ok linked) ↔
        ∃ relinked, link others .absolute = .ok relinked) ∧
      ∀ linked relinked, link modules .absolute = .ok linked →
        link others .absolute = .ok relinked → SameImage linked relinked := by
  have insideOthers : ∀ object ∈ others, object.FieldsInside :=
    fun object member => inside object (permuted.mem_iff.mp member)
  cases modules with
  | nil =>
    cases permuted.eq_nil
    exact ⟨Iff.rfl, fun _ _ impossible => by cases impossible⟩
  | cons first rest =>
    cases others with
    | nil => cases permuted.symm.eq_nil
    | cons other later =>
      simp only [link_absolute_iff]
      refine ⟨⟨?_, ?_⟩, ?_⟩
      · rintro ⟨_, start, limit, code, linkable, _⟩
        exact ⟨_, start, limit, code, linkable.perm permuted inside, rfl⟩
      · rintro ⟨_, start, limit, code, linkable, _⟩
        exact ⟨_, start, limit, code, linkable.perm permuted.symm insideOthers, rfl⟩
      · rintro _ _ ⟨start, limit, code, linkable, rfl⟩ ⟨_, _, _, relinkable, rfl⟩
        obtain ⟨rfl, rfl⟩ := (linkable.perm permuted inside).unique_image relinkable
        exact ⟨rfl, rfl, ownExports_perm permuted, rfl, rfl, rfl⟩

/-- Two modules that refer to each other's place are linked to the same program in either order. -/
theorem link_absolute_perm_calling_called :
    [calledModule, callingModule].Perm [callingModule, calledModule] ∧
      (∀ object ∈ [callingModule, calledModule], ∀ record ∈ object.relocations,
        record.inside object.code.size) ∧
      ∃ linked relinked, link [callingModule, calledModule] .absolute = .ok linked ∧
        link [calledModule, callingModule] .absolute = .ok relinked ∧
        linked.name ≠ relinked.name ∧ SameImage linked relinked := by
  have permuted : [calledModule, callingModule].Perm [callingModule, calledModule] :=
    List.Perm.swap _ _ _
  have inside : ∀ object ∈ [callingModule, calledModule], ∀ record ∈ object.relocations,
      record.inside object.code.size := by
    decide
  obtain ⟨linked, succeeded, _⟩ := linkAbsolute_calling_called
  obtain ⟨relinked, again⟩ := (link_absolute_perm permuted inside).1.mp ⟨linked, succeeded⟩
  have same := (link_absolute_perm permuted inside).2 linked relinked succeeded again
  refine ⟨permuted, inside, linked, relinked, succeeded, again, ?_, same⟩
  obtain ⟨_, _, _, _, rfl⟩ := link_absolute_iff.mp succeeded
  obtain ⟨_, _, _, _, rfl⟩ := link_absolute_iff.mp again
  show callingModule.name ≠ calledModule.name
  decide

end Object

end Sicxe
