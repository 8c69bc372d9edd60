import Sicxe.Proofs.Link.Frame
import Sicxe.Proofs.Link.FromText
import Sicxe.Proofs.Object.Legible

/-!
# Reading linked programs

A linked program is written as text, and the text is to be read again. The reader has limits, and
modules that meet them one by one may exceed them together.

* `Object.legible_absolute`: a program linked at the starts of its modules stays in the limits.
* `Object.legible_relocatable`: modules laid end to end do if they fit in the address space.
* `Object.ofText_toText_link`: what is read from the text of a linked program, and exactly when.
* `Object.ofText_toText_link_large`: two modules, each of which fits in the address space, make up a
  program that is written and cannot be read.
-/

namespace Sicxe

namespace Object

variable {modules : List Object} {linked object : Object}

/-! ### Programs at the starts of their modules -/

/-- The span of modules inside the address space lies in it. -/
theorem span_limit_le (nonempty : modules ≠ [])
    (inside : ∀ object ∈ modules, object.limit ≤ addressSpace) :
    (Section.span (Section.ofStarts modules)).1 ≤ (Section.span (Section.ofStarts modules)).2 ∧
      (Section.span (Section.ofStarts modules)).2 ≤ addressSpace := by
  have sections : Section.ofStarts modules ≠ [] := by
    rw [← List.length_pos_iff, Section.length_ofStarts]
    exact List.length_pos_of_ne_nil nonempty
  have greatest := (List.max?_eq_some_iff.mp (Section.max?_span sections)).1
  have limit := greatest
  rw [Section.map_limit_ofStarts] at limit
  obtain ⟨object, member, isLimit⟩ := List.mem_map.mp limit
  obtain ⟨range, inSections, isRange⟩ := List.mem_map.mp greatest
  have bounds := Section.span_bounds inSections
  have ordered := Section.begin_le_limit_of_ofStarts range inSections
  have bound := inside object member
  omega

/-- **A program linked at the starts of legible modules is legible.** -/
theorem legible_absolute (legible : ∀ object ∈ modules, object.Legible)
    (succeeded : link modules .absolute = .ok linked) : linked.Legible := by
  cases modules with
  | nil => cases succeeded
  | cons first rest =>
    obtain ⟨globals, code, _, collected, _, built, rfl⟩ := linkAbsolute_eq_ok_iff.mp succeeded
    obtain ⟨unique, rfl⟩ := PlacedObject.globals_eq_ok_iff.mp collected
    have ofFirst := legible first List.mem_cons_self
    obtain ⟨ordered, limit⟩ := span_limit_le (List.cons_ne_nil first rest)
      fun object member => (legible object member).limit
    have size := (image_kept built fun placed member => inImage_of_mem_atStarts member).1
    rw [blankImage, Array.size_replicate] at size
    refine {
      name := ofFirst.name
      symbols := fun symbol member => ?_
      imports := List.forall_mem_nil _
      relocations := List.forall_mem_nil _
      trimmed := ofFirst.trimmed
      distinctSymbols := ?_
      distinctImports := List.nodup_nil
      regular := List.forall_mem_nil _
      bounded := List.forall_mem_nil _
      limit := ?_
      movable := fun _ => rfl }
    · obtain ⟨placed, inPlaced, isExport⟩ := List.mem_flatMap.mp (List.mem_of_mem_filter member)
      exact isField_of_mem_exports (legible _ (List.of_mem_zip inPlaced).1).toWritableNames isExport
    · rw [exported_flatMap_exports]
      exact unique
    · show (UInt32.ofNat _).toNat + code.size ≤ addressSpace
      rw [toNat_span_start, size]
      omega

/-! ### Programs of modules laid end to end -/

theorem nodup_foldl_addName {names added : List String} (unique : names.Nodup) :
    (added.foldl addName names).Nodup := by
  induction added generalizing names with
  | nil => exact unique
  | cons name rest ih => exact ih (nodup_addName unique name)

/-- A shifted record is as regular as the record itself. -/
theorem regular_shifted {record : Relocation} (regular : record.Regular) (distance : Nat) :
    (record.shifted distance).Regular :=
  ⟨regular.least, regular.greatest, regular.length, regular.relative⟩

/-- **Legible modules laid end to end are legible together** if they fit in the address space. -/
theorem legible_relocatable (legible : ∀ object ∈ modules, object.Legible)
    (succeeded : link modules .relocatable = .ok linked)
    (fits : totalLength modules ≤ addressSpace) : linked.Legible := by
  have names := writableNames_of_relocatable (fun object member =>
    (legible object member).toWritableNames) succeeded
  cases modules with
  | nil => cases succeeded
  | cons first rest =>
    obtain ⟨addressable, unique, rfl⟩ := linkRelocatable_eq_ok_iff.mp succeeded
    refine { names with
      trimmed := (legible first List.mem_cons_self).trimmed
      distinctSymbols := ?_
      distinctImports := nodup_foldl_addName List.nodup_nil
      regular := fun record member => ?_
      bounded := fun record member => ?_
      limit := ?_
      movable := nofun }
    · rw [exported_flatMap_exports]
      exact unique
    · obtain ⟨object, inModules, original, inObject, distance, rfl⟩ := of_mem_recordsFrom member
      exact regular_shifted ((legible object inModules).regular original inObject) distance
    · show 0 + record.offset < Numeral.wordBound
      rw [Nat.zero_add]
      exact addressable.records record member
    · show 0 + (joinedCode (first :: rest)).size ≤ addressSpace
      rw [Nat.zero_add, size_joinedCode]
      exact fits

/-- The length and the start of a program of modules laid end to end. -/
theorem bounds_relocatable (succeeded : link modules .relocatable = .ok linked) :
    linked.start = 0 ∧ linked.length = totalLength modules := by
  cases modules with
  | nil => cases succeeded
  | cons first rest =>
    obtain ⟨_, _, rfl⟩ := linkRelocatable_eq_ok_iff.mp succeeded
    exact ⟨rfl, size_joinedCode _⟩

/-- Modules that were laid end to end have room there. -/
theorem addressable_of_link (succeeded : link modules .relocatable = .ok linked) :
    Addressable modules := by
  cases modules with
  | nil => cases succeeded
  | cons first rest => exact (linkRelocatable_eq_ok_iff.mp succeeded).1

/-- **The header of a module beyond the address space is refused.** -/
theorem ofText_toText_beyond (names : object.WritableNames)
    (short : object.length < Numeral.wordBound) (beyond : addressSpace < object.limit) :
    ofText object.toText =
      .error (.malformed 1 (.beyondAddressSpace object.length object.start.toNat)) := by
  have start := readNumber_padded 1 "start address" 6 object.start.toNat_lt
  have length := readNumber_padded 1 "length" 6 short
  have outside : ¬ object.start.toNat + object.length ≤ addressSpace := Nat.not_le.mpr beyond
  have header : readHeader 1 object.headerRecord.tail =
      .error (.malformed 1 (.beyondAddressSpace object.length object.start.toNat)) := by
    show (readNumber 1 "start address" (Hex.padded 6 object.start.toNat) >>= _) = _
    rw [start]
    show (readNumber 1 "length" (Hex.padded 6 object.length) >>= _) = _
    rw [length]
    exact if_neg outside
  rw [ofText, names.recordsOfText_toText]
  show (readHeader 1 object.headerRecord.tail >>= _) = _
  rw [header]
  rfl

/-! ### Reading the text of a program -/

/-- Every symbol of a linked program is exported. -/
theorem exported_linked {mode : LinkMode} (succeeded : link modules mode = .ok linked) :
    linked.symbols.exported = linked.symbols.symbols := by
  cases modules with
  | nil => cases succeeded
  | cons first rest =>
    cases mode with
    | absolute =>
      obtain ⟨globals, _, _, collected, _, _, rfl⟩ := linkAbsolute_eq_ok_iff.mp succeeded
      obtain ⟨_, rfl⟩ := PlacedObject.globals_eq_ok_iff.mp collected
      exact exported_flatMap_exports _
    | relocatable =>
      obtain ⟨_, _, rfl⟩ := linkRelocatable_eq_ok_iff.mp succeeded
      exact exported_flatMap_exports _

/-- What is read back of a linked program that the text can hold. -/
theorem exists_back_of_legible {mode : LinkMode} (succeeded : link modules mode = .ok linked)
    (whole : linked.Legible) :
    ∃ back, ofText linked.toText = .ok back ∧ Recovered linked back ∧
      back.symbols.symbols.map (fun symbol => (symbol.name, symbol.address)) =
        linked.symbols.symbols.map fun symbol => (symbol.name, symbol.address) := by
  have back := recovered_readBack linked
  refine ⟨linked.readBack, ofText_toText whole, back, ?_⟩
  rw [back.symbols, exported_linked succeeded]

/-- Modules laid end to end to a program that is read back fit in the address space: what was read
does, and it has the code of the program. -/
theorem totalLength_le_of_back {back : Object} (succeeded : link modules .relocatable = .ok linked)
    (isRead : ofText linked.toText = .ok back) (isBack : Recovered linked back) :
    totalLength modules ≤ addressSpace := by
  obtain ⟨start, length⟩ := bounds_relocatable succeeded
  have isStart : back.start.toNat = 0 := by rw [isBack.start, start]; rfl
  have limit : back.start.toNat + back.code.size ≤ addressSpace := (legible_of_ofText isRead).limit
  rw [isStart, Nat.zero_add, isBack.code] at limit
  exact length ▸ limit

/-- **The text of a linked program is read as the program exactly if the reader's limits hold for
it.** At the starts of modules that were read they always do. Modules laid end to end must together
fit in the address space; where they do not, the reader refuses the header. -/
theorem ofText_toText_link {mode : LinkMode} (read : ∀ object ∈ modules, ∃ text,
    ofText text = .ok object) (succeeded : link modules mode = .ok linked) :
    ((∃ back, ofText linked.toText = .ok back ∧ Recovered linked back ∧
        back.symbols.symbols.map (fun symbol => (symbol.name, symbol.address)) =
          linked.symbols.symbols.map fun symbol => (symbol.name, symbol.address)) ↔
      mode = .absolute ∨ totalLength modules ≤ addressSpace) ∧
    (mode = .relocatable → addressSpace < totalLength modules →
      ofText linked.toText =
        .error (.malformed 1 (.beyondAddressSpace (totalLength modules) 0))) := by
  have legible : ∀ object ∈ modules, object.Legible := by
    intro object member
    obtain ⟨_, isRead⟩ := read object member
    exact legible_of_ofText isRead
  refine ⟨⟨?_, ?_⟩, ?_⟩
  · rintro ⟨back, isRead, isBack, _⟩
    cases mode with
    | absolute => exact Or.inl rfl
    | relocatable => exact Or.inr (totalLength_le_of_back succeeded isRead isBack)
  · intro limits
    refine exists_back_of_legible succeeded ?_
    cases mode with
    | absolute => exact legible_absolute legible succeeded
    | relocatable =>
      obtain absolute | fits := limits
      · cases absolute
      · exact legible_relocatable legible succeeded fits
  · rintro rfl beyond
    have names := writableNames_of_relocatable (fun object member =>
      (legible object member).toWritableNames) succeeded
    obtain ⟨start, length⟩ := bounds_relocatable succeeded
    have limit : linked.limit = totalLength modules := by
      rw [Object.limit, start, length]
      exact Nat.zero_add _
    have short := (addressable_of_link succeeded).length
    have refused := ofText_toText_beyond names (length ▸ short) (limit ▸ beyond)
    rwa [length, start] at refused

/-- A relocatable program of two modules that were read is read again. -/
theorem ofText_toText_link_calling_called :
    ∃ modules linked back, (∀ object ∈ modules, ∃ text, ofText text = .ok object) ∧
      link modules .relocatable = .ok linked ∧ totalLength modules = 13 ∧
      ofText linked.toText = .ok back ∧ Recovered linked back := by
  have read : ∀ object ∈ [callingModule, calledModule].map readBack,
      ∃ text, ofText text = .ok object := by
    have textual : ∀ object ∈ [callingModule, calledModule], object.Textual := by
      intro object member
      obtain ⟨_, _, assembled⟩ := calling_called_assembled object member
      exact assemble_textual assembled
    refine List.forall_mem_map.mpr fun object member => ?_
    exact ⟨_, ofText_toText (textual object member).legible⟩
  have linked : ∃ linked, link ([callingModule, calledModule].map readBack) .relocatable =
      .ok linked := ⟨_, rfl⟩
  obtain ⟨linked, succeeded⟩ := linked
  obtain ⟨back, isRead, isBack, _⟩ := (ofText_toText_link read succeeded).1.mpr
    (Or.inr (by decide))
  exact ⟨_, linked, back, read, succeeded, rfl, isRead, isBack⟩

/-- A module of zeros that takes more than half of the address space. -/
def halfModule : Object where
  code := Array.replicate 0x80001 0
  fullyRelocated := true

theorem length_halfModule : halfModule.length = 0x80001 := by
  rw [length, halfModule, Array.size_replicate]

theorem ofText_halfModule : ofText halfModule.toText = .ok halfModule := by
  have named : IsField halfModule.name.toList := ⟨List.not_mem_nil, List.not_mem_nil⟩
  refine ofText_toText ⟨⟨named, List.forall_mem_nil _, List.forall_mem_nil _,
    List.forall_mem_nil _⟩, rfl, List.nodup_nil, List.nodup_nil, List.forall_mem_nil _,
    List.forall_mem_nil _, ?_, fun _ => rfl⟩
  rw [Object.limit, length_halfModule]
  decide

/-- **Two modules that fit in the address space one by one are linked to a program that does not**,
and its text cannot be read. -/
theorem ofText_toText_link_large :
    ∃ modules linked, (∀ object ∈ modules, ∃ text, ofText text = .ok object) ∧
      link modules .relocatable = .ok linked ∧
      ofText linked.toText = .error (.malformed 1 (.beyondAddressSpace 0x100002 0)) := by
  have whole : totalLength [halfModule, halfModule] = 0x100002 := by
    rw [totalLength_cons, totalLength_cons, length_halfModule]
    rfl
  have addressable : Addressable [halfModule, halfModule] :=
    ⟨whole ▸ by decide, List.forall_mem_nil _⟩
  have linked : ∃ linked, link [halfModule, halfModule] .relocatable = .ok linked :=
    ⟨_, linkRelocatable_eq_ok_iff.mpr ⟨addressable, List.nodup_nil, rfl⟩⟩
  obtain ⟨linked, succeeded⟩ := linked
  obtain ⟨start, length⟩ := bounds_relocatable succeeded
  have total : linked.length = 0x100002 := length.trans whole
  have limit : linked.limit = 0x100002 := by
    rw [Object.limit, start, total]
    rfl
  have read : ∀ object ∈ [halfModule, halfModule], ∃ text, ofText text = .ok object := by
    rw [List.forall_mem_cons, List.forall_mem_singleton]
    exact ⟨⟨_, ofText_halfModule⟩, _, ofText_halfModule⟩
  have names := writableNames_of_relocatable (fun object member => by
    obtain ⟨_, isRead⟩ := read object member
    exact (legible_of_ofText isRead).toWritableNames) succeeded
  refine ⟨_, linked, read, succeeded, ?_⟩
  have refused := ofText_toText_beyond names (total ▸ by decide) (limit ▸ by decide)
  rwa [total, start] at refused

end Object

end Sicxe
