import Sicxe.Proofs.Assembly.Emission
import Sicxe.Proofs.Object.Fixups

/-!
# Assembled modules

What a linker or loader may rely on in a module that was assembled.

* `Placement.Assembled.slice_at`: the bytes of a line are in the code at the offset of the line.
* `Placement.Assembled.fields_pairwise`: the fields of the records come one behind the other.
* `Placement.Assembled.soundRecords`: the fields of the records lie inside the code and share no
  byte.
* `Placement.Assembled.line_free`: no record of another line reaches into the bytes of a line.
-/

namespace Sicxe

theorem Follows.bounds {address limit : Nat} {lines : List PlacedLine}
    (follows : Follows address lines limit) :
    ∀ line ∈ lines, address ≤ line.address ∧ line.address + line.size ≤ limit := by
  induction lines generalizing address with
  | nil => exact fun _ member => by cases member
  | cons head rest ih =>
    obtain ⟨here, follows⟩ := follows
    intro line member
    rcases List.mem_cons.mp member with rfl | member
    · have := follows.le
      omega
    · have := ih follows line member
      omega

/-- **A line ends before the later ones begin.** -/
theorem Follows.pairwise {address limit : Nat} {lines : List PlacedLine}
    (follows : Follows address lines limit) :
    lines.Pairwise fun first second => first.address + first.size ≤ second.address := by
  induction lines generalizing address with
  | nil => exact .nil
  | cons head rest ih =>
    obtain ⟨here, follows⟩ := follows
    refine List.pairwise_cons.mpr ⟨fun line member => ?_, ih follows⟩
    have := follows.bounds line member
    omega

namespace Placement.Assembled

variable {placement : Placement} {object : Object} {emitted before after : List EmittedLine}
variable {line : EmittedLine} {record : Relocation}

/-- The module is as long as the placement says. -/
theorem length (assembled : placement.Assembled object emitted) :
    object.code.size = placement.length := by
  have follows := assembled.follows
  rw [← assembled.lines] at follows
  have length := EmittedLine.length_flatMap_padded assembled.fits follows
  rw [← Array.length_toList, assembled.code]
  omega

/-- The offset of a line is the length of the lines before it. -/
theorem offset_eq (assembled : placement.Assembled object (before ++ line :: after)) :
    placement.start ≤ line.placed.address ∧
      placement.offset line.placed = (before.flatMap EmittedLine.padded).length := by
  have follows := assembled.follows
  rw [← assembled.lines, List.map_append, follows_append] at follows
  obtain ⟨middle, first, here, _⟩ := follows
  have length := EmittedLine.length_flatMap_padded
    (fun other member => assembled.fits other (List.mem_append_left _ member)) first
  rw [offset, here]
  omega

/-- **The bytes of a line are in the code at the offset of the line.** -/
theorem slice_at (assembled : placement.Assembled object (before ++ line :: after)) :
    Bytes.slice object.code (placement.offset line.placed) line.encoded.bytes.length =
      line.encoded.bytes := by
  rw [assembled.offset_eq.2]
  have holds : object.code.toList = before.flatMap EmittedLine.padded ++ line.encoded.bytes ++
      (List.replicate (line.placed.size - line.encoded.bytes.length) 0 ++
        after.flatMap EmittedLine.padded) := by
    rw [assembled.code, List.flatMap_append, List.flatMap_cons]
    simp only [EmittedLine.padded, List.append_assoc]
  exact Bytes.slice_of_append holds

/-- A line of the placement with its encoding, and the base under which it was encoded. -/
theorem exists_split (assembled : placement.Assembled object emitted)
    {linesBefore linesAfter : List PlacedLine} {placed : PlacedLine}
    (split : placement.lines = linesBefore ++ placed :: linesAfter) :
    ∃ before after encoded inForce, emitted = before ++ ⟨placed, encoded⟩ :: after ∧
      linesBefore.foldlM placement.nextBase none = .ok inForce ∧
      placement.encodeLine inForce placed = .ok encoded := by
  have lines := assembled.lines
  rw [split] at lines
  obtain ⟨before, others, rfl, isBefore, isOthers⟩ := List.map_eq_append_iff.mp lines
  obtain ⟨⟨other, encoded⟩, after, rfl, isPlaced, _⟩ := List.map_eq_cons_iff.mp isOthers
  have isPlaced : other = placed := isPlaced
  subst isPlaced
  obtain ⟨inForce, reached, encodes⟩ := assembled.emits.encodes_at
  exact ⟨before, after, encoded, inForce, rfl, isBefore ▸ reached, encodes⟩

/-- A record belongs to a line, and its field lies in the bytes of the line. -/
theorem record_shape (assembled : placement.Assembled object emitted) (member : line ∈ emitted)
    (isRecord : line.encoded.record = some record) :
    LineRecord (placement.offset line.placed) record line.encoded.bytes.length := by
  obtain ⟨_, encodes⟩ := assembled.emits.encodes_mem line member
  exact (encodeLine_origin encodes record isRecord).shape

theorem offset_add_size_le (assembled : placement.Assembled object emitted)
    (member : line ∈ emitted) :
    placement.start ≤ line.placed.address ∧
      placement.offset line.placed + line.placed.size ≤ object.code.size := by
  have inLines : line.placed ∈ placement.lines := by
    rw [← assembled.lines]
    exact List.mem_map_of_mem member
  have bounds := assembled.follows.bounds _ inLines
  rw [assembled.length, offset]
  omega

/-- The field of a record lies in the stretch of code of its line. -/
theorem field_in_line (assembled : placement.Assembled object emitted) (member : line ∈ emitted)
    (isRecord : line.encoded.record = some record) :
    placement.offset line.placed ≤ record.offset ∧
      record.offset + record.length ≤ placement.offset line.placed + line.placed.size := by
  have inside := (assembled.record_shape member isRecord).field_inside
  have fits : line.encoded.bytes.length ≤ line.placed.size := assembled.fits line member
  omega

/-- Earlier lines have the earlier stretches of code. -/
theorem offsets_pairwise (assembled : placement.Assembled object emitted) :
    emitted.Pairwise fun first second =>
      placement.offset first.placed + first.placed.size ≤ placement.offset second.placed := by
  have pairwise := assembled.follows.pairwise
  rw [← assembled.lines, List.pairwise_map] at pairwise
  refine pairwise.imp_of_mem fun first _ behind => ?_
  have := (assembled.offset_add_size_le first).1
  unfold offset
  omega

/-- **The fields of the records come one behind the other.** -/
theorem fields_pairwise (assembled : placement.Assembled object emitted) :
    object.relocations.Pairwise fun first second =>
      first.offset + first.length ≤ second.offset := by
  rw [assembled.relocations, EmittedLine.records, List.pairwise_filterMap]
  refine assembled.offsets_pairwise.imp_of_mem fun firstIn secondIn behind =>
    fun first isFirst second isSecond => ?_
  have inFirst := assembled.field_in_line firstIn isFirst
  have inSecond := assembled.field_in_line secondIn isSecond
  omega

/-- **The fields of the records lie inside the code and share no byte.** -/
theorem soundRecords (assembled : placement.Assembled object emitted) : object.SoundRecords := by
  have line_of : ∀ record ∈ object.relocations, ∃ line ∈ emitted,
      line.encoded.record = some record := by
    intro record member
    rw [assembled.relocations] at member
    exact List.mem_filterMap.mp member
  constructor
  · intro record member
    obtain ⟨line, inEmitted, isRecord⟩ := line_of record member
    have shape := assembled.record_shape inEmitted isRecord
    obtain ⟨_, _, least, greatest⟩ := shape.field_inside
    have inLine := assembled.field_in_line inEmitted isRecord
    have inCode := (assembled.offset_add_size_le inEmitted).2
    exact ⟨⟨least, greatest, by omega⟩, shape.hasInstruction⟩
  · intro record member
    obtain ⟨line, inEmitted, isRecord⟩ := line_of record member
    exact (assembled.record_shape inEmitted isRecord).fits
  · exact assembled.fields_pairwise.imp fun behind => Or.inl behind
  · intro record member
    obtain ⟨line, inEmitted, isRecord⟩ := line_of record member
    exact (assembled.record_shape inEmitted isRecord).capacity_of_relative

/-- **No record of another line reaches into the bytes of a line.** -/
theorem line_free (assembled : placement.Assembled object (before ++ line :: after))
    (member : record ∈ object.relocations) {index : Nat}
    (behind : placement.offset line.placed ≤ index)
    (upTo : index < placement.offset line.placed + line.placed.size)
    (covers : record.Covers index) : line.encoded.record = some record := by
  rw [assembled.relocations] at member
  obtain ⟨other, inEmitted, isRecord⟩ := List.mem_filterMap.mp member
  have inLine := assembled.field_in_line inEmitted isRecord
  obtain ⟨_, fromLine, fromBefore⟩ := List.pairwise_append.mp assembled.offsets_pairwise
  unfold Relocation.Covers at covers
  rcases List.mem_append.mp inEmitted with earlier | here
  · have := fromBefore other earlier line List.mem_cons_self
    omega
  · rcases List.mem_cons.mp here with rfl | later
    · exact isRecord
    · have := (List.pairwise_cons.mp fromLine).1 other later
      omega

end Placement.Assembled

/-- **An assembled module has sound records.** -/
theorem assemble_soundRecords {source : String} {placement : Placement} {object : Object}
    (assembled : assemble source = .ok (placement, object)) : object.SoundRecords := by
  obtain ⟨_, emitted, made⟩ := assemble_assembled assembled
  exact made.soundRecords

end Sicxe
