import Sicxe.Proofs.Link.Absolute

/-!
# Modules laid end to end

`Object.laidOut` moves modules to consecutive addresses, so that linking them at their own starts
puts them where relocatable linking puts them.

* `Object.atStarts_laidOut`: the moved modules do not overlap.
* `Object.exports_laidOut`: their common table is the relocatable one moved to the base.
* `Object.foldlM_placeInImage_laidOut`: copying and fixing them up module by module comes to fixing
  up their concatenated code with the shifted records.
-/

namespace Sicxe

open Relocation (FixedBy)

namespace Object

/-- A module moved to another start, its symbols and its entry with it. -/
def movedTo (object : Object) (target : UInt32) : Object :=
  { object with
    start := target
    entry := target + (object.entry - object.start)
    symbols := object.symbols.rebased object.start target }

theorem code_movedTo (object : Object) (target : UInt32) :
    (object.movedTo target).code = object.code := rfl

theorem relocations_movedTo (object : Object) (target : UInt32) :
    (object.movedTo target).relocations = object.relocations := rfl

/-- Modules moved to consecutive addresses from `address` on. -/
def laidOut (address : Nat) : List Object → List Object
  | [] => []
  | object :: rest =>
    object.movedTo (UInt32.ofNat address) :: laidOut (address + object.length) rest

/-- The number of bytes of some modules. -/
def totalLength : List Object → Nat
  | [] => 0
  | object :: rest => object.length + totalLength rest

/-- The code of modules, one after another. -/
def joinedCode (modules : List Object) : Array UInt8 :=
  modules.foldl (fun code object => code ++ object.code) #[]

/-- The records of modules that lie one after another from `position` on. -/
def recordsFrom (position : Nat) : List Object → List Relocation
  | [] => []
  | object :: rest =>
    (object.relocations.map fun record => record.shifted position) ++
      recordsFrom (position + object.length) rest

variable {object first : Object} {modules rest : List Object} {base : UInt32}
variable {address position : Nat}

theorem totalLength_cons (object : Object) (rest : List Object) :
    totalLength (object :: rest) = object.length + totalLength rest :=
  rfl

theorem toList_foldl_code (code : Array UInt8) (modules : List Object) :
    (modules.foldl (fun code object => code ++ object.code) code).toList =
      code.toList ++ modules.flatMap fun object => object.code.toList := by
  induction modules generalizing code with
  | nil => exact (List.append_nil _).symm
  | cons object rest ih =>
    rw [List.foldl_cons, ih, Array.toList_append, List.flatMap_cons, List.append_assoc]

theorem toList_joinedCode (modules : List Object) :
    (joinedCode modules).toList = modules.flatMap fun object => object.code.toList :=
  toList_foldl_code #[] modules

theorem length_flatMap_code (modules : List Object) :
    (modules.flatMap fun object => object.code.toList).length = totalLength modules := by
  induction modules with
  | nil => rfl
  | cons object rest ih =>
    rw [List.flatMap_cons, List.length_append, ih, totalLength_cons, Array.length_toList]
    rfl

theorem size_joinedCode (modules : List Object) :
    (joinedCode modules).size = totalLength modules := by
  rw [← Array.length_toList, toList_joinedCode, length_flatMap_code]

/-! ### Sections -/

theorem length_laidOut (address : Nat) (modules : List Object) :
    (laidOut address modules).length = modules.length := by
  induction modules generalizing address with
  | nil => rfl
  | cons object rest ih => rw [laidOut, List.length_cons, ih, List.length_cons]

theorem start_movedTo (object : Object) (bound : address < 0x100000000) :
    (object.movedTo (UInt32.ofNat address)).start.toNat = address := by
  show (UInt32.ofNat address).toNat = address
  rw [UInt32.toNat_ofNat']
  omega

/-- Moved modules lie in the addresses that they were moved to. -/
theorem bounds_laidOut (bound : address + totalLength modules < 0x100000000) :
    ∀ moved ∈ laidOut address modules,
      address ≤ moved.start.toNat ∧ moved.limit ≤ address + totalLength modules := by
  induction modules generalizing address with
  | nil => exact fun _ member => by cases member
  | cons object rest ih =>
    rw [totalLength_cons] at bound ⊢
    intro moved member
    rcases List.mem_cons.mp member with rfl | member
    · have start := start_movedTo object (show address < 0x100000000 by omega)
      have limit : (object.movedTo (UInt32.ofNat address)).limit =
        (object.movedTo (UInt32.ofNat address)).start.toNat + object.length := rfl
      omega
    · have := ih (by omega) moved member
      omega

/-- **Moved modules lie one behind the other.** -/
theorem pairwise_laidOut (bound : address + totalLength modules < 0x100000000) :
    (laidOut address modules).Pairwise fun first second => first.limit ≤ second.start.toNat := by
  induction modules generalizing address with
  | nil => exact .nil
  | cons object rest ih =>
    rw [totalLength_cons] at bound
    refine List.pairwise_cons.mpr ⟨fun moved member => ?_, ih (by omega)⟩
    have start := start_movedTo object (show address < 0x100000000 by omega)
    have limit : (object.movedTo (UInt32.ofNat address)).limit =
      (object.movedTo (UInt32.ofNat address)).start.toNat + object.length := rfl
    have := (bounds_laidOut (by omega) moved member).1
    omega

/-- **Moved modules do not overlap.** -/
theorem atStarts_laidOut (bound : address + totalLength modules < 0x100000000) :
    Section.atStarts (laidOut address modules) =
      .ok (Section.ofStarts (laidOut address modules)) := by
  have addressable : ∀ moved ∈ laidOut address modules, moved.limit < Numeral.wordBound :=
    fun moved member => Nat.lt_of_le_of_lt (bounds_laidOut bound moved member).2 bound
  refine Section.atStarts_of_ascending addressable ?_
  have behind := pairwise_laidOut bound
  have pairs : (Section.ofStarts (laidOut address modules)).map
      (fun range => (range.begin, range.limit)) =
      (laidOut address modules).map fun moved => (moved.start.toNat, moved.limit) :=
    Section.map_bounds_ofStarts _
  rw [← List.pairwise_map (f := fun moved : Object => (moved.start.toNat, moved.limit))
    (R := fun first second => first.2 ≤ second.1), ← pairs, List.pairwise_map] at behind
  exact behind

/-- The last moved module ends where all of them end. -/
theorem exists_limit_laidOut (nonempty : modules ≠ [])
    (bound : address + totalLength modules < 0x100000000) :
    ∃ moved ∈ laidOut address modules, moved.limit = address + totalLength modules := by
  induction modules generalizing address with
  | nil => exact absurd rfl nonempty
  | cons object rest ih =>
    rw [totalLength_cons] at bound ⊢
    cases rest with
    | nil =>
      have start := start_movedTo object (show address < 0x100000000 by omega)
      refine ⟨_, List.mem_cons_self, ?_⟩
      show (object.movedTo (UInt32.ofNat address)).start.toNat + object.length = _
      rw [start]
      rfl
    | cons next rest =>
      obtain ⟨moved, member, limit⟩ := ih (List.cons_ne_nil _ _)
        (show address + object.length + totalLength (next :: rest) < 0x100000000 by omega)
      exact ⟨moved, List.mem_cons_of_mem _ member, by omega⟩

/-- **Moved modules span the addresses that they were moved to.** -/
theorem span_laidOut (nonempty : modules ≠ [])
    (bound : address + totalLength modules < 0x100000000) :
    Section.span (Section.ofStarts (laidOut address modules)) =
      (address, address + totalLength modules) := by
  obtain ⟨first, rest, rfl⟩ := List.exists_cons_of_ne_nil nonempty
  have sections : Section.ofStarts (laidOut address (first :: rest)) ≠ [] :=
    ofStarts_ne_nil (List.cons_ne_nil _ _)
  have bounds := bounds_laidOut bound
  have least : ((laidOut address (first :: rest)).map fun moved => moved.start.toNat).min? =
      some address := by
    refine List.min?_eq_some_iff.mpr ⟨List.mem_map.mpr ⟨_, List.mem_cons_self, ?_⟩, ?_⟩
    · exact start_movedTo first (by omega)
    · intro start member
      obtain ⟨moved, inLayout, rfl⟩ := List.mem_map.mp member
      exact (bounds moved inLayout).1
  have greatest : ((laidOut address (first :: rest)).map Object.limit).max? =
      some (address + totalLength (first :: rest)) := by
    obtain ⟨last, inLayout, limit⟩ := exists_limit_laidOut nonempty bound
    refine List.max?_eq_some_iff.mpr ⟨List.mem_map.mpr ⟨last, inLayout, limit⟩, ?_⟩
    intro limit member
    obtain ⟨moved, inLayout, rfl⟩ := List.mem_map.mp member
    exact (bounds moved inLayout).2
  rw [← Section.map_begin_ofStarts, Section.min?_span sections] at least
  rw [← Section.map_limit_ofStarts, Section.max?_span sections] at greatest
  exact Prod.ext (Option.some.inj least) (Option.some.inj greatest)

/-! ### Exports -/

theorem rebased_shift (symbol : Symbol) (origin target base : UInt32) :
    (symbol.rebased origin target).rebased 0 base = symbol.rebased origin (base + target) := by
  unfold Symbol.rebased
  cases isAbsolute : symbol.absolute with
  | true => simp only [isAbsolute, if_true]
  | false =>
    simp only [Bool.false_eq_true, if_false]
    rw [UInt32.sub_zero, UInt32.add_assoc]

theorem exported_rebased (table : SymbolTable) (origin target : UInt32) :
    (table.rebased origin target).exported =
      table.exported.map fun symbol => symbol.rebased origin target := by
  unfold SymbolTable.exported SymbolTable.rebased
  rw [List.filter_map]
  congr 2
  funext symbol
  simp only [Function.comp, Symbol.rebased]
  split <;> rfl

/-- **The table of moved modules is the relocatable one moved to the base.** -/
theorem exports_laidOut (modules : List Object) (distance position index : Nat) :
    (((modules.zip (Section.endToEndFrom position index modules)).flatMap
      PlacedObject.exports).map fun symbol => symbol.rebased 0 (UInt32.ofNat distance)) =
      (laidOut (distance + position) modules).flatMap fun moved => moved.symbols.exported := by
  induction modules generalizing position index with
  | nil => rfl
  | cons object rest ih =>
    rw [Section.endToEndFrom, List.zip_cons_cons, List.flatMap_cons, List.map_append, ih, laidOut,
      List.flatMap_cons, Nat.add_assoc]
    congr 1
    show ((object.symbols.rebased object.start (UInt32.ofNat position)).exported).map _ =
      (object.symbols.rebased object.start (UInt32.ofNat (distance + position))).exported
    rw [exported_rebased, exported_rebased, List.map_map, UInt32.ofNat_add]
    refine List.map_congr_left fun symbol _ => ?_
    exact rebased_shift symbol _ _ _

/-! ### The image -/

theorem shifted_inside {record : Relocation} {size : Nat} (inside : record.inside size)
    (position : Nat) : (record.shifted position).inside (position + size) := by
  obtain ⟨least, greatest, bound⟩ := inside
  refine ⟨least, greatest, ?_⟩
  show record.offset + position + record.length ≤ position + size
  omega

theorem map_shifted_zero (records : List Relocation) :
    (records.map fun record => record.shifted 0) = records :=
  List.map_id _

/-- An image and a joined code on the way from one module to the next: both are the same up to
`position`, and behind it the joined code goes on with the modules that are still to come. -/
structure CopiedTo (position : Nat) (modules : List Object) (image joined : Array UInt8) :
    Prop where
  size : image.size = joined.size
  total : joined.size = position + totalLength modules
  agree : Bytes.Agree image 0 joined position
  coming : joined.toList.drop position = modules.flatMap fun object => object.code.toList

namespace CopiedTo

variable {image joined fixedImage fixed : Array UInt8}

/-- At the end, the image is the joined code. -/
theorem eq_of_nil (copied : CopiedTo position [] image joined) : image = joined := by
  have size := copied.size
  have total := copied.total
  rw [totalLength] at total
  refine Array.ext_getElem? fun index => ?_
  by_cases inside : index < position
  · have agreed := copied.agree index inside
    rw [Nat.zero_add] at agreed
    exact agreed
  · rw [Array.getElem?_eq_none (by omega), Array.getElem?_eq_none (by omega)]

/-- Behind `position`, the joined code is the code of the next module. -/
theorem getElem?_coming (copied : CopiedTo position (object :: rest) image joined) {index : Nat}
    (behind : position ≤ index) (inCode : index < position + object.code.size) :
    joined[index]? = object.code[index - position]? := by
  have here : joined[index]? = (joined.toList.drop position)[index - position]? := by
    rw [List.getElem?_drop, Nat.add_sub_cancel' behind, Array.getElem?_toList]
  have short : index - position < object.code.toList.length := by
    rw [Array.length_toList]
    omega
  rw [here, copied.coming, List.flatMap_cons, List.getElem?_append_left short,
    Array.getElem?_toList]

/-- With the next module copied, the image agrees with the joined code up to the end of it. -/
theorem written (copied : CopiedTo position (object :: rest) image joined) :
    Bytes.Agree (Bytes.write image position object.code.toList) 0 joined
      (position + object.code.size) := by
  have size := copied.size
  have total := copied.total
  have length : object.length = object.code.size := rfl
  rw [totalLength_cons] at total
  have fits : position + object.code.toList.length ≤ image.size := by
    rw [Array.length_toList]
    omega
  intro index bound
  rw [Nat.zero_add, Bytes.getElem?_write _ _ _ fits, Array.length_toList]
  by_cases inCode : position ≤ index ∧ index < position + object.code.size
  · rw [if_pos inCode, copied.getElem?_coming inCode.1 inCode.2, Array.getElem?_toList]
  · rw [if_neg inCode]
    have agreed := copied.agree index (by omega)
    rw [Nat.zero_add] at agreed
    exact agreed

/-- **Fixing up one module in both leads on to the next module**, as its records stay inside it. -/
theorem next {address : String → Option UInt32} {origin : Nat} {records : List Relocation}
    (copied : CopiedTo position (object :: rest) image joined)
    (inside : ∀ record ∈ records, record.inside (position + object.code.size))
    (run : FixedBy address origin records joined fixed) (sameSize : fixedImage.size = image.size)
    (agree : Bytes.Agree fixedImage 0 fixed (position + object.code.size)) :
    CopiedTo (position + object.length) rest fixedImage fixed := by
  have total := copied.total
  have coming := copied.coming
  have length : object.length = object.code.toList.length := Array.length_toList.symm
  rw [totalLength_cons] at total
  rw [List.flatMap_cons] at coming
  refine ⟨by rw [sameSize, copied.size, run.size_eq], by rw [run.size_eq, total, Nat.add_assoc],
    agree, ?_⟩
  have kept : fixed.toList.drop (position + object.length) =
      joined.toList.drop (position + object.length) := by
    refine List.ext_getElem? fun index => ?_
    rw [List.getElem?_drop, List.getElem?_drop, Array.getElem?_toList, Array.getElem?_toList]
    refine run.kept fun record member covers => ?_
    have bound := (inside record member).2.2
    have begins := covers.2
    have same : object.length = object.code.size := rfl
    omega
  rw [kept, ← List.drop_drop, coming, length, List.drop_left]

end CopiedTo

/-- **Copying and fixing up moved modules one by one comes to fixing up their joined code.** -/
theorem foldlM_placeInImage_laidOut (position : Nat) {globals : SymbolTable} {base : UInt32}
    {sections : List Section} {image joined result : Array UInt8}
    (begins : ∀ placed ∈ (laidOut (base.toNat + position) modules).zip sections,
      placed.2.begin = placed.1.start.toNat)
    (lengths : sections.length = modules.length)
    (bound : base.toNat + position + totalLength modules < 0x100000000)
    (inside : ∀ object ∈ modules, ∀ record ∈ object.relocations, record.inside object.code.size)
    (copied : CopiedTo position modules image joined) :
    ((laidOut (base.toNat + position) modules).zip sections).foldlM
        (placeInImage globals base.toNat) image = .ok result ↔
      FixedBy globals.address? base.toNat (recordsFrom position modules) joined result := by
  -- The invariant `CopiedTo` is carried from each module to the next by its `next`.
  induction modules generalizing position sections image joined with
  | nil =>
    rw [laidOut, List.zip_nil_left, foldlM_nil_eq_ok_iff, recordsFrom, FixedBy.nil_iff,
      copied.eq_of_nil]
  | cons object rest ih =>
    obtain ⟨range, sections, rfl⟩ := List.exists_cons_of_length_eq_add_one lengths
    rw [totalLength_cons] at bound
    have begin : range.begin = base.toNat + position := by
      rw [begins (_, range) List.mem_cons_self]
      exact start_movedTo object (by omega)
    have distance : range.begin - base.toNat = position := by omega
    have shiftedInside : ∀ record ∈ object.relocations.map fun record => record.shifted position,
        record.inside (position + object.code.size) := by
      intro shifted member
      obtain ⟨record, original, rfl⟩ := List.mem_map.mp member
      exact shifted_inside (inside object List.mem_cons_self record original) position
    have size := copied.size
    have total := copied.total
    have length : object.length = object.code.size := rfl
    rw [totalLength_cons] at total
    have writtenSize := Bytes.size_write image position object.code.toList
    have small : image.size ≤ Numeral.wordBound := by
      unfold Numeral.wordBound
      omega
    have later {fixedImage fixed : Array UInt8}
        (coming : CopiedTo (position + object.length) rest fixedImage fixed) :
        ((laidOut (base.toNat + (position + object.length)) rest).zip sections).foldlM
            (placeInImage globals base.toNat) fixedImage = .ok result ↔
          FixedBy globals.address? base.toNat (recordsFrom (position + object.length) rest) fixed
            result := by
      refine ih _ (fun placed member => begins placed ?_) (Nat.succ.inj lengths) (by omega)
        (fun other member => inside other (List.mem_cons_of_mem _ member)) coming
      rw [laidOut, Nat.add_assoc]
      exact List.mem_cons_of_mem _ member
    rw [laidOut, List.zip_cons_cons, foldlM_cons_eq_ok_iff, recordsFrom, Nat.add_assoc]
    simp only [placeInImage_eq_ok_iff small, distance, code_movedTo, relocations_movedTo]
    constructor
    · rintro ⟨next, run, placedRest⟩
      rw [← map_shifted_zero (List.map _ _)] at run
      obtain ⟨fixed, inCode, agreed⟩ := FixedBy.ofImage run copied.written shiftedInside
        (fun _ _ => Or.inl rfl) (by omega) (by omega)
      have coming := copied.next shiftedInside inCode (run.size_eq.trans writtenSize) agreed
      exact inCode.append ((later coming).mp placedRest)
    · intro run
      obtain ⟨fixed, inCode, runRest⟩ := run.of_append
      have inCode : FixedBy globals.address? (base.toNat + 0) _ joined fixed := inCode
      obtain ⟨next, inImage, agreed⟩ := inCode.inImage copied.written shiftedInside
        (fun _ _ => Or.inl rfl) (by omega) (by omega)
      rw [map_shifted_zero] at inImage
      have coming := copied.next shiftedInside inCode (inImage.size_eq.trans writtenSize) agreed
      exact ⟨next, inImage, (later coming).mpr runRest⟩

end Object

end Sicxe
