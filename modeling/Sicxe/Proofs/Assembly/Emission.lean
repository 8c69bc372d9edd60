import Mathlib.Data.List.Basic
import Sicxe.Proofs.Assembly.Layout
import Sicxe.Proofs.Assembly.Line

/-!
# The code of a placement

The emission writes the lines into the code one by one. Because the lines follow one another, the
code comes out as their encodings laid end to end, each filled up with zeros to the size of its
line.

* `Emission.emitAll_append_iff`: lines are emitted in two stages as they are in one.
* `Emission.emitAll_emits`: what the emission of the lines leads to.
* `Placement.toObject_eq`: the module is made of what was emitted, `Placement.moduleOf`.
* `Placement.Assembled`: the module of a placement in terms of its encoded lines, with
  `Placement.toObject_assembled` for every source that was placed and `assemble_assembled` for every
  source that assembles.
-/

namespace Sicxe

/-- A line with its encoding. -/
structure EmittedLine where
  placed : PlacedLine
  encoded : EncodedLine

namespace EmittedLine

/-- The encoding of a line filled up with zeros to the size of the line. -/
def padded (emitted : EmittedLine) : List UInt8 :=
  emitted.encoded.bytes ++ List.replicate (emitted.placed.size - emitted.encoded.bytes.length) 0

/-- The encoding of a line fits in what was reserved for it. -/
def Fits (emitted : EmittedLine) : Prop :=
  emitted.encoded.bytes.length ≤ emitted.placed.size

theorem length_padded {emitted : EmittedLine} (fits : emitted.Fits) :
    emitted.padded.length = emitted.placed.size := by
  unfold Fits at fits
  rw [padded, List.length_append, List.length_replicate]
  omega

/-- The records of some lines. -/
def records (emitted : List EmittedLine) : List Relocation :=
  emitted.filterMap fun line => line.encoded.record

theorem records_cons (line : EmittedLine) (rest : List EmittedLine) :
    records (line :: rest) = line.encoded.record.toList ++ records rest := by
  rw [records, List.filterMap_cons]
  cases line.encoded.record <;> rfl

/-- The bytes of lines that follow one another reach from the first address to the limit. -/
theorem length_flatMap_padded {emitted : List EmittedLine} {address limit : Nat}
    (fits : ∀ line ∈ emitted, line.Fits)
    (follows : Follows address (emitted.map placed) limit) :
    address + (emitted.flatMap padded).length = limit := by
  induction emitted generalizing address with
  | nil => exact follows
  | cons line rest ih =>
    rw [List.flatMap_cons, List.length_append, length_padded (fits line List.mem_cons_self),
      ← Nat.add_assoc]
    exact ih (fun other member => fits other (List.mem_cons_of_mem _ member)) follows.2

end EmittedLine

namespace Placement

/-- The lines have these encodings, `base` being the base address in force before the first one. -/
inductive Emits (placement : Placement) : Option UInt32 → List EmittedLine → Prop
  | nil (base : Option UInt32) : Emits placement base []
  | cons {base next : Option UInt32} {line : PlacedLine} {encoded : EncodedLine}
      {rest : List EmittedLine} (encodes : placement.encodeLine base line = .ok encoded)
      (based : placement.nextBase base line = .ok next) (later : Emits placement next rest) :
      Emits placement base (⟨line, encoded⟩ :: rest)

namespace Emits

variable {placement : Placement} {base : Option UInt32} {emitted before after : List EmittedLine}

/-- A line among the others is encoded under the base that the lines before it leave in force. -/
theorem encodes_at : ∀ {before : List EmittedLine} {base : Option UInt32} {line : EmittedLine},
    Emits placement base (before ++ line :: after) →
      ∃ inForce, (before.map EmittedLine.placed).foldlM placement.nextBase base = .ok inForce ∧
        placement.encodeLine inForce line.placed = .ok line.encoded
  | [], base, _, .cons encodes _ _ => ⟨base, rfl, encodes⟩
  | _ :: _, _, _, .cons _ based later => by
    obtain ⟨inForce, reached, encodes⟩ := encodes_at later
    exact ⟨inForce, foldlM_cons_eq_ok_iff.mpr ⟨_, based, reached⟩, encodes⟩

theorem encodes_mem (emits : Emits placement base emitted) :
    ∀ line ∈ emitted, ∃ inForce, placement.encodeLine inForce line.placed = .ok line.encoded := by
  intro line member
  obtain ⟨before, after, rfl⟩ := List.append_of_mem member
  obtain ⟨inForce, _, encodes⟩ := encodes_at emits
  exact ⟨inForce, encodes⟩

theorem fits (emits : Emits placement base emitted)
    (sized : ∀ line ∈ emitted.map EmittedLine.placed, line.Sized) :
    ∀ line ∈ emitted, line.Fits := by
  intro line member
  obtain ⟨_, encodes⟩ := emits.encodes_mem line member
  exact length_encodeLine_le (sized _ (List.mem_map_of_mem member)) encodes

end Emits

end Placement

namespace Emission

open Placement

variable {placement : Placement} {emission next final : Emission} {line : PlacedLine}
variable {before after : List PlacedLine}

theorem emitAll_cons_iff :
    emission.emitAll placement (line :: after) = .ok final ↔
      ∃ next, emission.emit placement line = .ok next ∧
        next.emitAll placement after = .ok final := by
  rw [emitAll]
  cases emission.emit placement line <;> simp

/-- **Lines are emitted in two stages as they are in one.** -/
theorem emitAll_append_iff :
    emission.emitAll placement (before ++ after) = .ok final ↔
      ∃ middle, emission.emitAll placement before = .ok middle ∧
        middle.emitAll placement after = .ok final := by
  induction before generalizing emission with
  | nil => simp [emitAll]
  | cons line rest ih =>
    simp only [List.cons_append, emitAll_cons_iff, ih]
    constructor
    · rintro ⟨next, one, middle, first, second⟩
      exact ⟨middle, ⟨next, one, first⟩, second⟩
    · rintro ⟨middle, ⟨next, one, first⟩, second⟩
      exact ⟨next, one, middle, first, second⟩

/-- One line is encoded and its bytes are written at its offset. -/
theorem emit_cases (succeeded : emission.emit placement line = .ok next) :
    ∃ encoded, placement.encodeLine emission.base line = .ok encoded ∧
      placement.nextBase emission.base line = .ok next.base ∧
      placement.nextEntry emission.entry line = .ok next.entry ∧
      next.relocations.toList = emission.relocations.toList ++ encoded.record.toList ∧
      next.code = Bytes.write emission.code (placement.offset line) encoded.bytes := by
  obtain ⟨encoded, encodes, succeeded⟩ := bind_eq_ok_iff.mp succeeded
  obtain ⟨base, based, succeeded⟩ := bind_eq_ok_iff.mp succeeded
  obtain ⟨entry, entered, succeeded⟩ := bind_eq_ok_iff.mp succeeded
  obtain ⟨code, written, same⟩ := bind_eq_ok_iff.mp succeeded
  cases same
  refine ⟨encoded, encodes, based, entered, ?_, ?_⟩
  · cases encoded.record with
    | none => exact (List.append_nil _).symm
    | some record => exact Array.toList_push
  · unfold writeLine at written
    dsimp only at written
    split at written
    · rename_i empty
      cases written
      rw [List.isEmpty_iff.mp empty, Bytes.write]
    · split at written
      · cases written
      · cases written
        rfl

/-- **The code becomes the encodings of the lines laid end to end**, and the records of the lines
come in their order. -/
theorem emitAll_emits {lines : List PlacedLine} {address limit : Nat} (done : List UInt8)
    (succeeded : emission.emitAll placement lines = .ok final)
    (follows : Follows address lines limit) (sized : ∀ line ∈ lines, line.Sized)
    (reached : placement.start + done.length = address)
    (holds : emission.code.toList = done ++ List.replicate (limit - address) 0) :
    ∃ emitted, emitted.map EmittedLine.placed = lines ∧
      Emits placement emission.base emitted ∧
      final.code.toList = done ++ emitted.flatMap EmittedLine.padded ∧
      final.relocations.toList = emission.relocations.toList ++ EmittedLine.records emitted := by
  induction lines generalizing emission address done with
  | nil =>
    cases succeeded
    refine ⟨[], rfl, .nil _, ?_, (List.append_nil _).symm⟩
    rw [holds, show address = limit from follows, Nat.sub_self]
    rfl
  | cons line rest ih =>
    obtain ⟨next, one, succeeded⟩ := emitAll_cons_iff.mp succeeded
    obtain ⟨encoded, encodes, based, _, records, code⟩ := emit_cases one
    obtain ⟨here, follows⟩ := follows
    have bound := length_encodeLine_le (sized line List.mem_cons_self) encodes
    have fits : EmittedLine.Fits ⟨line, encoded⟩ := bound
    have later := follows.le
    have offset : placement.offset line = done.length := by
      rw [offset, here]
      omega
    have written : next.code.toList = (done ++ EmittedLine.padded ⟨line, encoded⟩) ++
        List.replicate (limit - (address + line.size)) 0 := by
      rw [code, offset, Bytes.toList_write holds (by rw [List.length_replicate]; omega),
        List.drop_replicate, EmittedLine.padded, List.append_assoc, List.append_assoc,
        List.append_assoc, List.replicate_append_replicate]
      congr 3
      dsimp only
      omega
    obtain ⟨emitted, same, emits, finalCode, finalRecords⟩ := ih _ succeeded follows
      (fun other member => sized other (List.mem_cons_of_mem _ member))
      (by rw [List.length_append, EmittedLine.length_padded fits, ← reached, Nat.add_assoc])
      written
    refine ⟨⟨line, encoded⟩ :: emitted, by rw [List.map_cons, same], .cons encodes based emits,
      ?_, ?_⟩
    · rw [finalCode, List.flatMap_cons, List.append_assoc]
    · rw [finalRecords, records, List.append_assoc, EmittedLine.records_cons]

end Emission

namespace Placement

/-- What is known before the first line is emitted. -/
def emptyEmission (placement : Placement) : Emission where
  entry := UInt32.ofNat placement.start
  code := Array.replicate placement.length 0

/-- The module of a placement whose lines were emitted. -/
def moduleOf (placement : Placement) (emission : Emission) : Object where
  name := placement.name
  start := UInt32.ofNat placement.start
  entry := emission.entry
  code := emission.code
  symbols := placement.symbols
  imports := placement.imports
  relocations := emission.relocations.toList
  fullyRelocated := false
  source := some placement.source

/-- **The module of a placement is made of what its lines emit.** -/
theorem toObject_eq (placement : Placement) :
    placement.toObject =
      (placement.emptyEmission.emitAll placement placement.lines).map placement.moduleOf := by
  unfold toObject emptyEmission
  dsimp only
  split
  · rename_i refused
    rw [refused]
    rfl
  · rename_i emission succeeded
    rw [succeeded]
    rfl

end Placement

/-- A module in terms of the encoded lines of its placement. -/
structure Placement.Assembled (placement : Placement) (object : Object)
    (emitted : List EmittedLine) : Prop where
  lines : emitted.map EmittedLine.placed = placement.lines
  follows : Follows placement.start placement.lines (placement.start + placement.length)
  emits : placement.Emits none emitted
  fits : ∀ line ∈ emitted, line.Fits
  code : object.code.toList = emitted.flatMap EmittedLine.padded
  relocations : object.relocations = EmittedLine.records emitted
  bounded : placement.start < maxAddress
  start : object.start = UInt32.ofNat placement.start
  name : object.name = placement.name
  symbols : object.symbols = placement.symbols
  imports : object.imports = placement.imports
  movable : object.fullyRelocated = false

/-- **The module of a placement is made of its encoded lines.** -/
theorem Placement.toObject_assembled {source : String} {placement : Placement} {object : Object}
    (placed : Placement.ofSource source = .ok placement)
    (made : placement.toObject = .ok object) : ∃ emitted, placement.Assembled object emitted := by
  have follows := Placement.follows placed
  have sized := Placement.sized placed
  rw [Placement.toObject_eq] at made
  obtain ⟨emission, succeeded, rfl⟩ := map_eq_ok_iff.mp made
  obtain ⟨emitted, lines, emits, code, relocations⟩ := Emission.emitAll_emits [] succeeded
    follows sized (Nat.add_zero _) (by simp [Placement.emptyEmission])
  exact ⟨emitted, lines, follows, emits, emits.fits (lines ▸ sized), code, relocations,
    (Placement.limit_le placed).1, rfl, rfl, rfl, rfl, rfl⟩

/-- A source that assembles is placed, and its module is made of the placement. -/
theorem assemble_cases {source : String} {placement : Placement} {object : Object}
    (assembled : assemble source = .ok (placement, object)) :
    Placement.ofSource source = .ok placement ∧ placement.toObject = .ok object := by
  obtain ⟨found, placed, assembled⟩ := bind_eq_ok_iff.mp assembled
  obtain ⟨made, encoded, same⟩ := bind_eq_ok_iff.mp assembled
  cases same
  exact ⟨placed, encoded⟩

/-- **The module of a source is made of the encoded lines of its placement.** -/
theorem assemble_assembled {source : String} {placement : Placement} {object : Object}
    (assembled : assemble source = .ok (placement, object)) :
    Placement.ofSource source = .ok placement ∧
      ∃ emitted, placement.Assembled object emitted := by
  obtain ⟨placed, made⟩ := assemble_cases assembled
  exact ⟨placed, Placement.toObject_assembled placed made⟩

end Sicxe
