import Mathlib.Data.List.Basic
import Sicxe.Text.Blank
import Sicxe.Text.Lines

/-!
# Written lines

* `Text.lines_unlines`: the lines of a text are the lines that were written, as long as none holds
  a line feed or ends in a blank.
* `Text.trimRight_eq_self`, `Text.trim_append_spaces`: what trimming leaves of a written field.
* `Text.of_mem_splitOn`, `Text.closed_splitOn`, `Text.trim_trim`: what the pieces of a text that was
  read are like.
-/

namespace Sicxe.Text

theorem byteLength_cons (c : Char) (rest : List Char) :
    byteLength (c :: rest) = c.utf8Size + byteLength rest := by
  have counted : ∀ (text : List Char) (start : Nat),
      text.foldl (fun length c => length + c.utf8Size) start = start + byteLength text := by
    intro text
    induction text with
    | nil => exact fun start => rfl
    | cons c rest ih =>
      intro start
      rw [byteLength, List.foldl_cons, List.foldl_cons, ih, ih, Nat.zero_add, Nat.add_assoc]
  rw [byteLength, List.foldl_cons, counted, Nat.zero_add]

/-- A text of narrow characters has as many bytes as characters. -/
theorem byteLength_eq_length {text : List Char} (narrow : ∀ c ∈ text, c.utf8Size = 1) :
    byteLength text = text.length := by
  induction text with
  | nil => rfl
  | cons c rest ih =>
    rw [byteLength_cons, ih fun other member => narrow other (List.mem_cons_of_mem _ member),
      narrow c List.mem_cons_self, List.length_cons, Nat.add_comm]

/-- Only the empty text has no bytes. -/
theorem eq_nil_of_byteLength {text : List Char} (empty : byteLength text = 0) : text = [] := by
  cases text with
  | nil => rfl
  | cons c rest =>
    have positive := c.utf8Size_pos
    rw [byteLength_cons] at empty
    omega

/-! ### Blanks at the end -/

/-- A text that does not end in a blank. -/
def Closed (text : List Char) : Prop :=
  ∀ last, text.getLast? = some last → isBlank last = false

theorem Closed.append {front back : List Char} (nonempty : back ≠ []) (closed : Closed back) :
    Closed (front ++ back) := by
  intro last isLast
  rw [List.getLast?_append_of_ne_nil _ nonempty] at isLast
  exact closed last isLast

theorem Closed.cons {c : Char} {text : List Char} (visible : isBlank c = false)
    (closed : Closed text) : Closed (c :: text) := by
  intro last isLast
  cases text with
  | nil => cases isLast; exact visible
  | cons next rest => exact closed last (List.getLast?_cons_cons ▸ isLast)

theorem Closed.of_forall {text : List Char} (visible : ∀ c ∈ text, isBlank c = false) :
    Closed text :=
  fun last isLast => visible last (List.mem_of_getLast? isLast)

/-- **Trimming keeps a text that does not end in a blank.** -/
theorem trimRight_eq_self {text : List Char} (closed : Closed text) : trimRight text = text := by
  rcases List.eq_nil_or_concat' text with rfl | ⟨front, last, rfl⟩
  · rfl
  · have visible := closed last List.getLast?_concat
    rw [trimRight, List.reverse_append, List.reverse_singleton, List.singleton_append,
      List.dropWhile_cons_of_neg (by simp [visible]), List.reverse_cons,
      List.reverse_reverse]

theorem trim_eq_self {text : List Char} (visible : ∀ c ∈ text, isBlank c = false) :
    trim text = text := by
  have front : text.dropWhile isBlank = text := by
    cases text with
    | nil => rfl
    | cons c rest =>
      exact List.dropWhile_cons_of_neg (by simp [visible c List.mem_cons_self])
  rw [trim, front, trimRight_eq_self (.of_forall visible)]

theorem trimRight_append_spaces (text : List Char) (count : Nat) :
    trimRight (text ++ List.replicate count ' ') = trimRight text := by
  rw [trimRight, List.reverse_append, List.reverse_replicate]
  induction count with
  | zero => rfl
  | succ count ih =>
    rw [List.replicate_succ, List.cons_append, List.dropWhile_cons_of_pos (by decide), ih]

/-- Spaces behind a text do not count. -/
theorem trim_append_spaces (text : List Char) (count : Nat) :
    trim (text ++ List.replicate count ' ') = trim text := by
  have blank : (List.replicate count ' ').dropWhile isBlank = [] := by
    rw [List.dropWhile_replicate, if_pos (by decide)]
  rw [trim, List.dropWhile_append]
  split
  · rename_i empty
    rw [blank, trim, List.isEmpty_iff.mp empty]
  · exact trimRight_append_spaces _ count

/-- A text ends like what stands at its end. -/
theorem Closed.of_append {front back : List Char} (closed : Closed (front ++ back)) :
    Closed back := by
  intro last isLast
  refine closed last ?_
  rw [List.getLast?_append, isLast, Option.some_or]

/-- A text without the blanks at its end does not end in one. -/
theorem closed_trimRight (text : List Char) : Closed (trimRight text) := by
  intro last isLast
  have first := List.head?_dropWhile_not isBlank text.reverse
  rw [trimRight, List.getLast?_reverse] at isLast
  rw [isLast] at first
  exact first

theorem mem_of_mem_trimRight {text : List Char} {c : Char} (member : c ∈ trimRight text) :
    c ∈ text :=
  List.mem_reverse.mp ((List.dropWhile_sublist _).subset (List.mem_reverse.mp member))

theorem mem_of_mem_trim {text : List Char} {c : Char} (member : c ∈ trim text) : c ∈ text :=
  (List.dropWhile_sublist _).subset (mem_of_mem_trimRight member)

/-- **There is nothing left to trim in a trimmed text.** -/
theorem trim_trim (text : List Char) : trim (trim text) = trim text := by
  have front : (trim text).dropWhile isBlank = trim text := by
    cases trimmed : trim text with
    | nil => rfl
    | cons c rest =>
      obtain ⟨blanks, split⟩ : trim text <+: text.dropWhile isBlank :=
        List.reverse_suffix.mp (by
          rw [trim, trimRight, List.reverse_reverse]
          exact List.dropWhile_suffix isBlank)
      have first := List.head?_dropWhile_not isBlank text
      rw [← split, trimmed, List.cons_append, List.head?_cons] at first
      exact List.dropWhile_cons_of_neg (by simp [first])
  rw [trim, front]
  exact trimRight_eq_self (closed_trimRight _)

/-! ### Pieces -/

/-- **A piece of a text holds no mark**, and nothing that is not in the text. -/
theorem of_mem_splitOn {mark : Char} {text piece : List Char}
    (member : piece ∈ text.splitOn mark) : mark ∉ piece ∧ ∀ c ∈ piece, c ∈ text := by
  by_cases marked : mark ∈ text
  · obtain ⟨first, rest, rfl, unmarked⟩ := List.eq_append_cons_of_mem marked
    rw [List.splitOn_append_cons_self_of_not_mem unmarked] at member
    rcases List.mem_cons.mp member with rfl | later
    · exact ⟨unmarked, fun c inPiece => List.mem_append_left _ inPiece⟩
    · obtain ⟨free, inRest⟩ := of_mem_splitOn later
      exact ⟨free, fun c inPiece =>
        List.mem_append_right _ (List.mem_cons_of_mem _ (inRest c inPiece))⟩
  · rw [List.splitOn_eq_singleton marked, List.mem_singleton] at member
    rw [member]
    exact ⟨marked, fun _ inText => inText⟩
termination_by text.length

/-- The last piece of a text ends like the text. -/
theorem closed_splitOn (mark : Char) {text last : List Char} (closed : Closed text)
    (isLast : (text.splitOn mark).getLast? = some last) : Closed last := by
  by_cases marked : mark ∈ text
  · obtain ⟨first, rest, rfl, unmarked⟩ := List.eq_append_cons_of_mem marked
    rw [List.splitOn_append_cons_self_of_not_mem unmarked,
      List.getLast?_cons_of_ne_nil (List.splitOn_ne_nil mark rest)] at isLast
    rw [← List.singleton_append, ← List.append_assoc] at closed
    exact closed_splitOn mark closed.of_append isLast
  · rw [List.splitOn_eq_singleton marked] at isLast
    cases isLast
    exact closed
termination_by text.length

/-! ### Lines -/

theorem splitOn_unlines {lines : List (List Char)} (single : ∀ line ∈ lines, '\n' ∉ line) :
    (unlines lines).splitOn '\n' = lines ++ [[]] := by
  induction lines with
  | nil => rfl
  | cons line rest ih =>
    rw [unlines, List.flatMap_cons, List.append_assoc, List.singleton_append,
      List.splitOn_append_cons_self_of_not_mem (single line List.mem_cons_self), ← unlines,
      ih fun other member => single other (List.mem_cons_of_mem _ member), List.cons_append]

theorem dropReturn_eq_self {line : List Char} (closed : Closed line) : dropReturn line = line := by
  unfold dropReturn
  rw [if_neg]
  intro isLast
  have visible := closed _ isLast
  revert visible
  decide

/-- **The lines of a text are the lines that were written.** -/
theorem lines_unlines {written : List (List Char)} (single : ∀ line ∈ written, '\n' ∉ line)
    (closed : ∀ line ∈ written, Closed line) : lines (unlines written) = written := by
  have kept : written.map dropReturn = written := by
    refine (List.map_congr_left fun line member => ?_).trans (List.map_id _)
    exact dropReturn_eq_self (closed line member)
  simp only [lines, splitOn_unlines single, List.dropLast_concat, kept, List.getLast?_concat]

/-- A line holds no line feed. -/
theorem not_mem_of_mem_lines {text line : List Char} (member : line ∈ lines text) :
    '\n' ∉ line := by
  have ofPiece : ∀ piece ∈ text.splitOn '\n', '\n' ∉ piece :=
    fun piece isPiece => (of_mem_splitOn isPiece).1
  have ofEnded : ∀ ended ∈ (text.splitOn '\n').dropLast.map dropReturn, '\n' ∉ ended := by
    intro ended isEnded inEnded
    obtain ⟨piece, isPiece, rfl⟩ := List.mem_map.mp isEnded
    refine ofPiece piece (List.dropLast_subset _ isPiece) ?_
    unfold dropReturn at inEnded
    split at inEnded
    · exact List.dropLast_subset _ inEnded
    · exact inEnded
  unfold lines at member
  dsimp only at member
  split at member
  · exact ofEnded line member
  · exact ofEnded line member
  · rename_i last _ isLast
    rcases List.mem_append.mp member with isEnded | isEnd
    · exact ofEnded line isEnded
    · rw [List.mem_singleton.mp isEnd]
      exact ofPiece last (List.mem_of_getLast? isLast)

end Sicxe.Text
