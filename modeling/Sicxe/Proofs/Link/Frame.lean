import Sicxe.Object.Text.Parser
import Sicxe.Proofs.Link.Absolute

/-!
# What linking leaves alone

The records of a module are checked against the whole image, so that a record whose field is not
inside its own module changes other bytes of the image. Modules are copied and fixed up one after
another: the copy of a module wipes out what earlier modules did to its bytes, and what later ones
do stays.

* `Object.image_kept`, `Object.image_copied`: a byte of an image changes only where a module is
  copied or a record reaches.
* `Object.linkAbsolute_frame`: which bytes of a program are those of its modules, and which are
  zero.
-/

namespace Sicxe

namespace Object

open Relocation (FixedBy)

variable {globals : SymbolTable} {start : Nat} {image result : Array UInt8}

/-! ### The image -/

/-- The field of a record of a placed module reaches an address. -/
def ReachesIn (placed : PlacedObject) (record : Relocation) (address : Nat) : Prop :=
  (record.shifted placed.2.begin).Covers address

/-- After the copy of a module, a byte changes only where one of its records reaches. -/
theorem placeInImage_unreached {placed : PlacedObject} (inImage : InImage start image.size placed)
    (succeeded : placeInImage globals start image placed = .ok result) {index : Nat}
    (unreached : ∀ record ∈ placed.1.relocations, ¬ ReachesIn placed record (start + index)) :
    result[index]? =
      (Bytes.write image (placed.2.begin - start) placed.1.code.toList)[index]? := by
  have begins := inImage.begins
  refine (fixedBy_of_placeInImage succeeded).kept fun shifted member covers => ?_
  obtain ⟨record, inModule, rfl⟩ := List.mem_map.mp member
  obtain ⟨least, greatest⟩ : record.offset + (placed.2.begin - start) ≤ index ∧
    index < record.offset + (placed.2.begin - start) + record.length := covers
  refine unreached record inModule ?_
  show record.offset + placed.2.begin ≤ start + index ∧
    start + index < record.offset + placed.2.begin + record.length
  omega

theorem size_placeInImage {placed : PlacedObject}
    (succeeded : placeInImage globals start image placed = .ok result) :
    result.size = image.size :=
  (fixedBy_of_placeInImage succeeded).size_eq.trans (Bytes.size_write ..)

/-- **A byte inside a module is copied**, unless a record of the module reaches it. -/
theorem placeInImage_copied {placed : PlacedObject} (inImage : InImage start image.size placed)
    (succeeded : placeInImage globals start image placed = .ok result) {index : Nat}
    (inside : placed.2.Contains (start + index))
    (unreached : ∀ record ∈ placed.1.relocations, ¬ ReachesIn placed record (start + index)) :
    result[index]? = placed.1.code[start + index - placed.2.begin]? := by
  obtain ⟨begins, limit, room⟩ := inImage
  have length : placed.1.length = placed.1.code.toList.length := Array.length_toList.symm
  unfold Section.Contains at inside
  rw [placeInImage_unreached ⟨begins, limit, room⟩ succeeded unreached,
    Bytes.getElem?_write _ _ _ (by omega), if_pos (by omega), Array.getElem?_toList]
  congr 1
  omega

/-- **A byte outside a module is kept**, unless a record of the module reaches it. -/
theorem placeInImage_kept {placed : PlacedObject} (inImage : InImage start image.size placed)
    (succeeded : placeInImage globals start image placed = .ok result) {index : Nat}
    (outside : ¬ placed.2.Contains (start + index))
    (unreached : ∀ record ∈ placed.1.relocations, ¬ ReachesIn placed record (start + index)) :
    result[index]? = image[index]? := by
  obtain ⟨begins, limit, room⟩ := inImage
  have length : placed.1.length = placed.1.code.toList.length := Array.length_toList.symm
  unfold Section.Contains at outside
  rw [placeInImage_unreached ⟨begins, limit, room⟩ succeeded unreached,
    Bytes.getElem?_write_of_apart _ _ _ (by omega) (by omega)]

/-- **A byte of an image is kept by modules** that it is not in and whose records do not reach
it. -/
theorem image_kept : ∀ {modules : List PlacedObject} {image : Array UInt8},
    modules.foldlM (placeInImage globals start) image = .ok result →
    (∀ placed ∈ modules, InImage start image.size placed) →
    result.size = image.size ∧
      ∀ index, (∀ placed ∈ modules, ¬ placed.2.Contains (start + index)) →
        (∀ placed ∈ modules, ∀ record ∈ placed.1.relocations,
          ¬ ReachesIn placed record (start + index)) → result[index]? = image[index]?
  | [], image, succeeded, _ => by
    rw [foldlM_nil_eq_ok_iff.mp succeeded]
    exact ⟨rfl, fun _ _ _ => rfl⟩
  | placed :: rest, image, succeeded, inImage => by
    obtain ⟨next, placedOne, placedRest⟩ := foldlM_cons_eq_ok_iff.mp succeeded
    have size := size_placeInImage placedOne
    obtain ⟨sizeRest, keptRest⟩ := image_kept placedRest fun other member => by
      rw [size]
      exact inImage other (List.mem_cons_of_mem _ member)
    refine ⟨sizeRest.trans size, fun index outside unreached => ?_⟩
    rw [keptRest index (fun other member => outside other (List.mem_cons_of_mem _ member))
        (fun other member => unreached other (List.mem_cons_of_mem _ member)),
      placeInImage_kept (inImage placed List.mem_cons_self) placedOne
        (outside placed List.mem_cons_self) (unreached placed List.mem_cons_self)]

/-- **A byte of a module is what the module has there**, where neither its own records reach it nor
the modules behind it or their records. -/
theorem image_copied {front back : List PlacedObject} {placed : PlacedObject}
    (succeeded : (front ++ placed :: back).foldlM (placeInImage globals start) image = .ok result)
    (inImage : ∀ other ∈ front ++ placed :: back, InImage start image.size other) (index : Nat)
    (inside : placed.2.Contains (start + index))
    (unreached : ∀ other ∈ placed :: back, ∀ record ∈ other.1.relocations,
      ¬ ReachesIn other record (start + index))
    (outside : ∀ other ∈ back, ¬ other.2.Contains (start + index)) :
    result[index]? = placed.1.code[start + index - placed.2.begin]? := by
  rw [List.foldlM_append, bind_eq_ok_iff] at succeeded
  obtain ⟨earlier, placedFront, succeeded⟩ := succeeded
  obtain ⟨copied, placedHere, placedBack⟩ := foldlM_cons_eq_ok_iff.mp succeeded
  obtain ⟨sizeFront, _⟩ := image_kept placedFront fun other member =>
    inImage other (List.mem_append_left _ member)
  have here : InImage start earlier.size placed :=
    sizeFront ▸ inImage placed (List.mem_append_right _ List.mem_cons_self)
  have behind : ∀ other ∈ back, InImage start copied.size other := fun other member => by
    rw [size_placeInImage placedHere, sizeFront]
    exact inImage other (List.mem_append_right _ (List.mem_cons_of_mem _ member))
  rw [(image_kept placedBack behind).2 index outside
      fun other member => unreached other (List.mem_cons_of_mem _ member),
    placeInImage_copied here placedHere inside (unreached placed List.mem_cons_self)]

/-! ### The program -/

/-- The field of a record of a module reaches an address, the module being at its start. -/
def Reaches (object : Object) (record : Relocation) (address : Nat) : Prop :=
  (record.shifted object.start.toNat).Covers address

/-- What linking at the starts leaves alone. -/
structure LinkFrame (modules : List Object) (linked : Object) : Prop where
  /-- A byte of a module is changed only by the records of the module and of the modules behind
  it in the list. -/
  kept : ∀ before object after, modules = before ++ object :: after → ∀ address,
    object.Contains address → (∀ record ∈ object.relocations, ¬ object.Reaches record address) →
    (∀ later ∈ after, ∀ record ∈ later.relocations, ¬ later.Reaches record address) →
    linked.byteAt? address = object.byteAt? address
  /-- A byte between the modules is zero unless a record reaches it. -/
  blank : ∀ address, linked.Contains address →
    (∀ object ∈ modules, ¬ object.Contains address) →
    (∀ object ∈ modules, ∀ record ∈ object.relocations, ¬ object.Reaches record address) →
    linked.byteAt? address = some 0
  /-- Where every field is inside its own module, records change their own modules only. -/
  confined : (∀ object ∈ modules, ∀ record ∈ object.relocations,
      record.inside object.code.size) →
    ∀ object ∈ modules, ∀ address, object.Contains address →
      (∀ record ∈ object.relocations, ¬ object.Reaches record address) →
      linked.byteAt? address = object.byteAt? address

theorem map_fst_atStarts (modules : List Object) : (atStarts modules).map Prod.fst = modules :=
  List.map_fst_zip (Nat.le_of_eq (Section.length_ofStarts modules).symm)

/-- A module at its own start, with the modules before and behind it. -/
theorem exists_atStarts_split {modules before after : List Object} {object : Object}
    (split : modules = before ++ object :: after) :
    ∃ front placed back, atStarts modules = front ++ placed :: back ∧ placed.1 = object ∧
      ∀ other ∈ back, other.1 ∈ after := by
  have firsts := map_fst_atStarts modules
  rw [split] at firsts
  obtain ⟨front, others, same, _, isOthers⟩ := List.map_eq_append_iff.mp firsts
  obtain ⟨placed, back, rfl, isObject, isAfter⟩ := List.map_eq_cons_iff.mp isOthers
  refine ⟨front, placed, back, split ▸ same, isObject, fun other member => ?_⟩
  rw [← isAfter]
  exact List.mem_map_of_mem member

/-- **Modules that are accepted at their starts share no address.** -/
theorem pairwise_apart_of_atStarts {modules : List Object} {sections : List Section}
    (accepted : Section.atStarts modules = .ok sections) :
    modules.Pairwise fun first second =>
      ∀ address, first.Contains address → ¬ second.Contains address := by
  have disjoint := Section.pairwise_disjoint_of_atStarts accepted
  obtain ⟨_, _, rfl⟩ := Section.atStarts_eq_ok_iff.mp accepted
  let apart : Nat × Nat → Nat × Nat → Prop := fun first second =>
    ∀ address, first.1 ≤ address ∧ address < first.2 → ¬ (second.1 ≤ address ∧ address < second.2)
  have bounds : ((Section.ofStarts modules).map fun range => (range.begin, range.limit)).Pairwise
      apart := List.pairwise_map.mpr disjoint
  rw [Section.map_bounds_ofStarts] at bounds
  exact List.pairwise_map.mp bounds

variable {modules : List Object} {linked : Object}

theorem contains_of_placed {placed : PlacedObject} (member : placed ∈ atStarts modules)
    (address : Nat) : placed.2.Contains address ↔ placed.1.Contains address := by
  obtain ⟨begins, limit⟩ := Section.of_mem_zip_ofStarts member
  rw [Section.Contains, Contains, begins, limit]

theorem reachesIn_of_placed {placed : PlacedObject} (member : placed ∈ atStarts modules)
    (record : Relocation) (address : Nat) :
    ReachesIn placed record address ↔ placed.1.Reaches record address := by
  rw [ReachesIn, Reaches, (Section.of_mem_zip_ofStarts member).1]

/-- **A byte of a module is changed only by the records of the module and of the modules behind
it.** -/
theorem byteAt?_link_of_unreached (succeeded : link modules .absolute = .ok linked)
    {before after : List Object} {object : Object} (split : modules = before ++ object :: after)
    {address : Nat} (inside : object.Contains address)
    (own : ∀ record ∈ object.relocations, ¬ object.Reaches record address)
    (later : ∀ other ∈ after, ∀ record ∈ other.relocations, ¬ other.Reaches record address) :
    linked.byteAt? address = object.byteAt? address := by
  have program := linkedAtStarts succeeded
  have apart := pairwise_apart_of_atStarts program.accepted
  obtain ⟨front, placed, back, whole, rfl, inAfter⟩ := exists_atStarts_split split
  have built := program.built
  rw [whole] at built
  have inAll : ∀ {other}, other ∈ placed :: back → other ∈ atStarts modules := fun member => by
    rw [whole]
    exact List.mem_append_right _ member
  have isPlaced := inAll List.mem_cons_self
  have begins := (Section.of_mem_zip_ofStarts isPlaced).1
  have start : linked.start.toNat ≤ placed.1.start.toNat :=
    begins ▸ (program.inImage isPlaced).begins
  have position : linked.start.toNat + (address - linked.start.toNat) = address :=
    Nat.add_sub_cancel' (Nat.le_trans start inside.1)
  have copied := image_copied built (fun other member => program.inImage (whole ▸ member))
    (address - linked.start.toNat)
  rw [position, begins] at copied
  rw [byteAt?, byteAt?, if_pos (Nat.le_trans start inside.1), if_pos inside.1, copied]
  · exact (contains_of_placed isPlaced address).mpr inside
  · intro other member record isRecord
    rw [reachesIn_of_placed (inAll member)]
    rcases List.mem_cons.mp member with rfl | inBack
    · exact own record isRecord
    · exact later other.1 (inAfter other inBack) record isRecord
  · intro other inBack
    rw [contains_of_placed (inAll (List.mem_cons_of_mem _ inBack))]
    rw [split] at apart
    exact (List.pairwise_cons.mp (List.pairwise_append.mp apart).2.1).1 other.1
      (inAfter other inBack) address inside

/-- **A byte between the modules is zero** unless a record reaches it. -/
theorem byteAt?_link_of_blank (succeeded : link modules .absolute = .ok linked) {address : Nat}
    (inside : linked.Contains address) (outside : ∀ object ∈ modules, ¬ object.Contains address)
    (unreached : ∀ object ∈ modules, ∀ record ∈ object.relocations,
      ¬ object.Reaches record address) : linked.byteAt? address = some 0 := by
  have program := linkedAtStarts succeeded
  obtain ⟨size, kept⟩ := image_kept program.built fun placed member => program.inImage member
  have position : linked.start.toNat + (address - linked.start.toNat) = address :=
    Nat.add_sub_cancel' inside.1
  have bound : address - linked.start.toNat < (blankImage (Section.ofStarts modules)).size := by
    have limit : linked.limit = linked.start.toNat + linked.code.size := rfl
    have := inside.2
    omega
  rw [blankImage, Array.size_replicate] at bound
  rw [byteAt?, if_pos inside.1, kept, blankImage, Array.getElem?_replicate, if_pos bound]
  · intro placed member
    rw [position, contains_of_placed member]
    exact outside placed.1 (List.of_mem_zip member).1
  · intro placed member record isRecord
    rw [position, reachesIn_of_placed member]
    exact unreached placed.1 (List.of_mem_zip member).1 record isRecord

/-- **Linking changes a byte of a module or between the modules only where a record reaches it**,
and where every field is inside its own module, the records of a module change that module only. -/
theorem linkAbsolute_frame {modules : List Object} {linked : Object}
    (succeeded : link modules .absolute = .ok linked) : LinkFrame modules linked := by
  refine ⟨fun before object after split address inside own later =>
      byteAt?_link_of_unreached succeeded split inside own later,
    fun address inside outside unreached =>
      byteAt?_link_of_blank succeeded inside outside unreached, ?_⟩
  intro inside object member address contains own
  obtain ⟨before, after, split⟩ := List.append_of_mem member
  refine byteAt?_link_of_unreached succeeded split contains own fun later inAfter record isRecord
    reaches => ?_
  have apart := pairwise_apart_of_atStarts (linkedAtStarts succeeded).accepted
  rw [split] at apart
  refine (List.pairwise_cons.mp (List.pairwise_append.mp apart).2.1).1 later inAfter address
    contains ?_
  have field := (inside later (by
    rw [split]
    exact List.mem_append_right _ (List.mem_cons_of_mem _ inAfter)) record isRecord).2.2
  obtain ⟨least, greatest⟩ : record.offset + later.start.toNat ≤ address ∧
    address < record.offset + later.start.toNat + record.length := reaches
  have limit : later.limit = later.start.toNat + later.code.size := rfl
  exact ⟨by omega, by omega⟩

theorem linkAbsolute_frame_calling_called :
    ∃ linked, link [callingModule, calledModule] .absolute = .ok linked ∧
      LinkFrame [callingModule, calledModule] linked := by
  obtain ⟨linked, succeeded, _⟩ := linkAbsolute_calling_called
  exact ⟨linked, succeeded, linkAbsolute_frame succeeded⟩

/-- A module of three zero bytes without records. -/
def struckModule : Object where
  name := "A"
  start := 3
  entry := 3
  code := #[0, 0, 0]
  fullyRelocated := true

/-- A module before it in memory whose only field lies behind its own code. -/
def strayingModule : Object where
  name := "B"
  code := #[0, 0, 0]
  symbols := ⟨[⟨"X", 5, true, false⟩]⟩
  relocations := [⟨3, "X", 3, 6, false⟩]

/-- **A record whose field is not inside its own module changes another module.** -/
theorem linkAbsolute_straying :
    ofText "H^A     ^000003^000003\nT^000003^03^000000\nE^000003\n" = .ok struckModule ∧
    ofText "H^B     ^000000^000003\nD^X^000005\nT^000000^03^000000\nM^000003^06^+X\nE^000000\n" =
      .ok strayingModule ∧
    struckModule.Contains 5 ∧ struckModule.relocations = [] ∧ struckModule.byteAt? 5 = some 0 ∧
    ∃ linked, link [struckModule, strayingModule] .absolute = .ok linked ∧
      linked.byteAt? 5 = some 5 := by
  have apart : (Section.ofStarts [struckModule, strayingModule]).Pairwise Section.Disjoint := by
    refine List.pairwise_pair.mpr fun address inStruck inStraying => ?_
    have behind : 3 ≤ address := inStruck.1
    have before : address < 3 := inStraying.2
    omega
  refine ⟨ok_of_toOption (by decide +kernel), ok_of_toOption (by decide +kernel),
    ⟨by decide, by decide⟩, rfl, rfl, _, linkAbsolute_eq_ok_iff.mpr
      ⟨⟨[⟨"X", 5, true, false⟩]⟩, #[0, 0, 0, 0, 0, 5],
        Section.atStarts_of_disjoint (by decide) apart, ?_, ?_, ?_, rfl⟩, ?_⟩
  · decide +kernel
  · decide +kernel
  · decide +kernel
  · decide +kernel

end Object

end Sicxe
