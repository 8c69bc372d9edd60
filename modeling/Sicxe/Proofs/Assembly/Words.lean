import Mathlib.Data.List.Chain
import Mathlib.Data.List.TakeWhile
import Sicxe.Assembly.Statement

/-!
# The words of a line

A line is cut at its blanks outside quotes, is ended by a comment word, and its words are joined
where they meet at a comma. How many blanks there are, and what the comment says, does not matter.

* `Statement.Balanced`, `Statement.Solid`: a text with all quotes closed, and one with no blank outside
  quotes.
* `Statement.Tidy`: the words that a line can be cut into. They are what comes of cutting
  (`tidy_cutWords`), of dropping the comment and of joining at commas (`Tidy.joinCommas`).
* `Statement.cutWords_append`: a blank outside quotes separates.
* `Statement.Tidy.cutWords_unwords`: tidy words with single spaces between them are cut into the same
  words.
* `Statement.words_exact`: **spacing and comments do not change the words of a line.**
-/

namespace Sicxe.Statement

variable {quoted : Bool} {text front rest line word next : List Char} {c : Char}
variable {list others : List (List Char)}

/-! ### Quotes -/

/-- Whether what follows a character stands in quotes. -/
def toggle (quoted : Bool) (c : Char) : Bool :=
  if c = '\'' then !quoted else quoted

/-- Whether what follows a text stands in quotes. -/
def quotedAfter (quoted : Bool) (text : List Char) : Bool :=
  text.foldl toggle quoted

/-- A blank is no quote. -/
theorem toggle_of_blank (blank : Text.isBlank c = true) : toggle quoted c = quoted := by
  refine if_neg ?_
  rintro rfl
  cases blank

theorem quotedAfter_append (quoted : Bool) (front rest : List Char) :
    quotedAfter quoted (front ++ rest) = quotedAfter (quotedAfter quoted front) rest :=
  List.foldl_append

/-- Every second quote closes the one before. -/
theorem quotedAfter_eq (quoted : Bool) (text : List Char) :
    quotedAfter quoted text = (quoted ^^ decide (text.count '\'' % 2 = 1)) := by
  induction text generalizing quoted with
  | nil => simp [quotedAfter]
  | cons c rest ih =>
    show quotedAfter (toggle quoted c) rest = _
    rw [ih, List.count_cons, toggle]
    by_cases isQuote : c = '\''
    · have flips : decide ((rest.count '\'' + 1) % 2 = 1) = !decide (rest.count '\'' % 2 = 1) := by
        rw [← decide_not]
        exact decide_eq_decide.mpr (by omega)
      simp only [isQuote, if_true, beq_self_eq_true, flips, Bool.not_xor, Bool.xor_not]
    · simp only [isQuote, if_false, beq_false_of_ne isQuote, Bool.false_eq_true, Nat.add_zero]

/-- A text with all quotes closed. -/
def Balanced (text : List Char) : Prop :=
  quotedAfter false text = false

theorem balanced_iff : Balanced text ↔ text.count '\'' % 2 = 0 := by
  rw [Balanced, quotedAfter_eq, Bool.false_xor, decide_eq_false_iff_not]
  omega

/-- A text with no blank outside quotes, when it begins inside of quotes or not. -/
def Solid (quoted : Bool) : List Char → Prop
  | [] => True
  | c :: rest => (Text.isBlank c = true → quoted = true) ∧ Solid (toggle quoted c) rest

theorem solid_append :
    Solid quoted (front ++ rest) ↔ Solid quoted front ∧ Solid (quotedAfter quoted front) rest := by
  induction front generalizing quoted with
  | nil => exact (and_iff_right trivial).symm
  | cons c front ih =>
    show _ ∧ Solid _ (front ++ rest) ↔ (_ ∧ Solid _ front) ∧ Solid (quotedAfter _ front) rest
    rw [ih, and_assoc]

/-- In front of every blank of a solid text, a quote is open. -/
theorem Solid.odd (solid : Solid false word) {before after : List Char}
    (split : word = before ++ c :: after) (blank : Text.isBlank c = true) :
    before.count '\'' % 2 = 1 := by
  rw [split, solid_append] at solid
  have isQuoted := solid.2.1 blank
  rw [quotedAfter_eq, Bool.false_xor, decide_eq_true_eq] at isQuoted
  exact isQuoted

/-! ### Cutting -/

theorem consWord_append (word : List Char) (list others : List (List Char)) :
    consWord word (list ++ others) = consWord word list ++ others := by
  unfold consWord
  split <;> rfl

theorem consWord_of_ne_nil (nonempty : word ≠ []) : consWord word list = word :: list := by
  rw [consWord, if_neg (by simpa using nonempty)]

theorem cutWords_eq (line : List Char) :
    cutWords line = consWord (cut false line).1 (cut false line).2 :=
  rfl

/-- A blank outside quotes ends a word. -/
theorem cut_blank (blank : Text.isBlank c = true) (rest : List Char) :
    cut false (c :: rest) = ([], cutWords rest) := by
  have notQuoted : (if c = '\'' then !false else false) = false := toggle_of_blank blank
  rw [cut, notQuoted]
  exact if_pos (by rw [blank]; rfl)

/-- Any other character belongs to its word. -/
theorem cut_visible (visible : Text.isBlank c = true → quoted = true) (rest : List Char) :
    cut quoted (c :: rest) =
      (c :: (cut (toggle quoted c) rest).1, (cut (toggle quoted c) rest).2) := by
  rw [cut]
  refine if_neg ?_
  rw [Bool.and_eq_true, Bool.not_eq_true']
  rintro ⟨blank, notQuoted⟩
  cases ((toggle_of_blank blank).trans (visible blank)).symm.trans notQuoted

/-- A character ends a word or belongs to it. -/
theorem blank_or_visible (quoted : Bool) (c : Char) :
    (Text.isBlank c = true ∧ quoted = false) ∨ (Text.isBlank c = true → quoted = true) := by
  cases quoted <;> simp

/-- The first blank outside quotes separates what is in front of it from what is behind it. -/
theorem cut_append (blank : Text.isBlank c = true) (balanced : quotedAfter quoted front = false) :
    cut quoted (front ++ c :: rest) =
      ((cut quoted front).1, (cut quoted front).2 ++ cutWords rest) := by
  induction front generalizing quoted with
  | nil =>
    have notQuoted : quoted = false := balanced
    rw [List.nil_append, notQuoted, cut_blank blank]
    rfl
  | cons d front ih =>
    have later := ih balanced
    rcases blank_or_visible quoted d with ⟨isBlank, rfl⟩ | visible
    · rw [toggle_of_blank isBlank] at later
      rw [List.cons_append, cut_blank isBlank, cut_blank isBlank, cutWords_eq, cutWords_eq, later]
      exact congrArg (Prod.mk []) (consWord_append _ _ _)
    · rw [List.cons_append, cut_visible visible, cut_visible visible, later]

/-- **A blank outside quotes separates the words.** -/
theorem cutWords_append (blank : Text.isBlank c = true) (balanced : Balanced front) :
    cutWords (front ++ c :: rest) = cutWords front ++ cutWords rest := by
  rw [cutWords_eq, cut_append blank balanced]
  exact consWord_append _ _ _

/-- A text without a blank outside quotes is not cut. -/
theorem cut_of_solid (solid : Solid quoted text) : cut quoted text = (text, []) := by
  induction text generalizing quoted with
  | nil => rfl
  | cons c rest ih => rw [cut_visible solid.1, ih solid.2]

theorem cutWords_of_solid (nonempty : word ≠ []) (solid : Solid false word) :
    cutWords word = [word] := by
  rw [cutWords, cut_of_solid solid]
  exact consWord_of_ne_nil nonempty

/-! ### Tidy words -/

/-- The words of a line: none is empty or has a blank outside quotes, and at most the last one leaves
a quote open. -/
structure Tidy (list : List (List Char)) : Prop where
  nonempty : ∀ word ∈ list, word ≠ []
  solid : ∀ word ∈ list, Solid false word
  balanced : list.IsChain fun word _ => Balanced word

theorem tidy_nil : Tidy [] :=
  ⟨List.forall_mem_nil _, List.forall_mem_nil _, .nil⟩

theorem tidy_cons_iff :
    Tidy (word :: list) ↔
      word ≠ [] ∧ Solid false word ∧ (list ≠ [] → Balanced word) ∧ Tidy list := by
  constructor
  · rintro ⟨nonempty, solid, balanced⟩
    obtain ⟨wordNonempty, nonempty⟩ := List.forall_mem_cons.mp nonempty
    obtain ⟨wordSolid, solid⟩ := List.forall_mem_cons.mp solid
    refine ⟨wordNonempty, wordSolid, fun further => ?_, nonempty, solid, balanced.tail⟩
    cases list with
    | nil => exact absurd rfl further
    | cons next rest => exact (List.isChain_cons_cons.mp balanced).1
  · rintro ⟨wordNonempty, wordSolid, wordBalanced, nonempty, solid, balanced⟩
    refine ⟨List.forall_mem_cons.mpr ⟨wordNonempty, nonempty⟩,
      List.forall_mem_cons.mpr ⟨wordSolid, solid⟩, ?_⟩
    cases list with
    | nil => exact .singleton _
    | cons next rest =>
      exact List.isChain_cons_cons.mpr ⟨wordBalanced (List.cons_ne_nil _ _), balanced⟩

/-- Cutting leaves the rest of a word, without blanks outside quotes, and tidy words behind it. -/
theorem cut_tidy (quoted : Bool) (text : List Char) :
    Solid quoted (cut quoted text).1 ∧ Tidy (cut quoted text).2 ∧
      ((cut quoted text).2 ≠ [] → quotedAfter quoted (cut quoted text).1 = false) := by
  induction text generalizing quoted with
  | nil => exact ⟨trivial, tidy_nil, fun further => absurd rfl further⟩
  | cons c rest ih =>
    rcases blank_or_visible quoted c with ⟨blank, rfl⟩ | visible
    · obtain ⟨solid, tidy, balanced⟩ := ih false
      rw [cut_blank blank]
      refine ⟨trivial, ?_, fun _ => rfl⟩
      by_cases empty : (cut false rest).1 = []
      · rw [cutWords_eq, consWord, if_pos (by simpa using empty)]
        exact tidy
      · rw [cutWords_eq, consWord_of_ne_nil empty]
        exact tidy_cons_iff.mpr ⟨empty, solid, balanced, tidy⟩
    · obtain ⟨solid, tidy, balanced⟩ := ih (toggle quoted c)
      rw [cut_visible visible]
      exact ⟨⟨visible, solid⟩, tidy, balanced⟩

/-- **The pieces of a line are tidy.** -/
theorem tidy_cutWords (line : List Char) : Tidy (cutWords line) := by
  -- A blank in front of the line makes its first word one of the words behind a blank.
  have separated := (cut_tidy false (' ' :: line)).2.1
  rw [cut_blank (by decide)] at separated
  exact separated

/-! ### Comments and commas -/

theorem Tidy.dropComment (tidy : Tidy list) : Tidy (dropComment list) := by
  have front := List.takeWhile_prefix (fun word : List Char => word.head? != some '.') (l := list)
  exact ⟨fun word member => tidy.nonempty word (front.subset member),
    fun word member => tidy.solid word (front.subset member), tidy.balanced.prefix front⟩

/-- Words that begin no comment. -/
def Uncommented (list : List (List Char)) : Prop :=
  ∀ word ∈ list, word.head? ≠ some '.'

theorem uncommented_dropComment (list : List (List Char)) : Uncommented (dropComment list) := by
  intro word member
  simpa using List.mem_takeWhile_imp member

/-- A comment word ends the words. -/
theorem dropComment_append (list others : List (List Char)) (text : List Char) :
    dropComment (list ++ ('.' :: text) :: others) = dropComment list := by
  unfold dropComment
  rw [List.takeWhile_append]
  split
  · rename_i whole
    rw [List.takeWhile_cons_of_neg (by simp), List.append_nil]
    exact ((List.takeWhile_prefix _).eq_of_length whole).symm
  · rfl

theorem dropComment_of_uncommented (uncommented : Uncommented list) : dropComment list = list :=
  List.takeWhile_eq_self_iff.mpr fun word member => by simpa using uncommented word member

/-- Two neighbouring words with a comma between them. -/
def Meet (word next : List Char) : Prop :=
  word.getLast? = some ',' ∨ next.head? = some ','

instance (word next : List Char) : Decidable (Meet word next) :=
  inferInstanceAs (Decidable (_ ∨ _))

/-- Words none of which meets the next one. -/
def Apart (list : List (List Char)) : Prop :=
  list.IsChain fun word next => ¬ Meet word next

theorem joinCommas_cons (word : List Char) (list : List (List Char)) :
    joinCommas (word :: list) =
      match joinCommas list with
      | next :: others =>
        if Meet word next then (word ++ next) :: others else word :: next :: others
      | [] => [word] :=
  rfl

theorem joinCommas_of_apart (apart : Apart list) : joinCommas list = list := by
  induction list with
  | nil => rfl
  | cons word list ih =>
    rw [joinCommas_cons, ih apart.tail]
    cases list with
    | nil => rfl
    | cons next others => exact if_neg (List.isChain_cons_cons.mp apart).1

/-- A word in front of a word that it does not meet. -/
theorem Apart.append {front : List Char} (nonempty : word ≠ []) (apart : Apart (word :: list)) :
    Apart ((front ++ word) :: list) := by
  cases list with
  | nil => exact .singleton _
  | cons next others =>
    obtain ⟨notMeet, later⟩ := List.isChain_cons_cons.mp apart
    refine List.isChain_cons_cons.mpr ⟨?_, later⟩
    rwa [Meet, List.getLast?_append_of_ne_nil _ nonempty]

/-- **Joining at commas keeps words tidy and free of comments, and none of them meet afterwards.** -/
theorem tidy_joinCommas (tidy : Tidy list) (uncommented : Uncommented list) :
    Tidy (joinCommas list) ∧ Uncommented (joinCommas list) ∧ Apart (joinCommas list) := by
  induction list with
  | nil => exact ⟨tidy, uncommented, .nil⟩
  | cons word list ih =>
    obtain ⟨nonempty, solid, balanced, tidy⟩ := tidy_cons_iff.mp tidy
    obtain ⟨plain, uncommented⟩ := List.forall_mem_cons.mp uncommented
    obtain ⟨laterTidy, laterPlain, apart⟩ := ih tidy uncommented
    rw [joinCommas_cons]
    cases joined : joinCommas list with
    | nil =>
      exact ⟨tidy_cons_iff.mpr ⟨nonempty, solid, fun further => absurd rfl further, tidy_nil⟩,
        List.forall_mem_singleton.mpr plain, .singleton _⟩
    | cons next others =>
      rw [joined] at laterTidy laterPlain apart
      have wordBalanced : Balanced word := by
        refine balanced ?_
        rintro rfl
        cases joined
      obtain ⟨nextNonempty, nextSolid, nextBalanced, othersTidy⟩ := tidy_cons_iff.mp laterTidy
      dsimp only
      split
      · refine ⟨tidy_cons_iff.mpr ⟨by simp [nonempty], ?_, fun further => ?_, othersTidy⟩,
          List.forall_mem_cons.mpr ⟨?_, (List.forall_mem_cons.mp laterPlain).2⟩,
          apart.append nextNonempty⟩
        · rw [solid_append, wordBalanced]
          exact ⟨solid, nextSolid⟩
        · rw [Balanced, quotedAfter_append, wordBalanced]
          exact nextBalanced further
        · rwa [List.head?_append_of_ne_nil _ nonempty]
      · rename_i notMeet
        exact ⟨tidy_cons_iff.mpr ⟨nonempty, solid, fun _ => wordBalanced, laterTidy⟩,
          List.forall_mem_cons.mpr ⟨plain, laterPlain⟩, List.isChain_cons_cons.mpr ⟨notMeet, apart⟩⟩

/-- The words of a line are tidy, begin no comment and do not meet. -/
theorem tidy_words (line : List Char) :
    Tidy (words line) ∧ Uncommented (words line) ∧ Apart (words line) :=
  tidy_joinCommas (tidy_cutWords line).dropComment (uncommented_dropComment _)

/-! ### Words with spaces between them -/

/-- Words with single spaces between them. -/
def unwords (list : List (List Char)) : List Char :=
  [' '].intercalate list

/-- **Tidy words come apart again at the spaces between them.** -/
theorem Tidy.cutWords_unwords (tidy : Tidy list) : cutWords (unwords list) = list := by
  induction list with
  | nil => rfl
  | cons word list ih =>
    obtain ⟨nonempty, solid, balanced, tidy⟩ := tidy_cons_iff.mp tidy
    cases list with
    | nil =>
      have single : unwords [word] = word := List.append_nil word
      rw [single, cutWords_of_solid nonempty solid]
    | cons next others =>
      have spaced : unwords (word :: next :: others) = word ++ ' ' :: unwords (next :: others) :=
        List.intercalate_cons_cons.trans (List.append_assoc _ _ _)
      rw [spaced, cutWords_append (by decide) (balanced (List.cons_ne_nil _ _)), ih tidy,
        cutWords_of_solid nonempty solid]
      rfl

/-- A comment behind a blank does not count. -/
theorem words_append_comment (balanced : Balanced line) (text : List Char) :
    words (line ++ ' ' :: '.' :: text) = words line := by
  have comment : ∃ rest others, cutWords ('.' :: text) = ('.' :: rest) :: others :=
    ⟨_, _, by rw [cutWords_eq, cut_visible (by decide), consWord_of_ne_nil (List.cons_ne_nil _ _)]⟩
  obtain ⟨rest, others, isComment⟩ := comment
  rw [words, words, cutWords_append (by decide) balanced, isComment, dropComment_append]

/-- The words of a line come apart again at single spaces. -/
theorem words_unwords (line : List Char) : words (unwords (words line)) = words line := by
  obtain ⟨tidy, uncommented, apart⟩ := tidy_words line
  calc words (unwords (words line))
      = joinCommas (dropComment (words line)) := by rw [words, tidy.cutWords_unwords]
    _ = joinCommas (words line) := by rw [dropComment_of_uncommented uncommented]
    _ = words line := joinCommas_of_apart apart

/-- **Spacing and comments do not change the words of a line.** A comment behind a blank does not
count if the quotes in front of it are closed, whatever it says. The words of a line with single
spaces between them have the same words. None of these is empty, begins like a comment or has a blank
in it with no quote open, and no two neighbours have a comma where they meet. -/
theorem words_exact (line : List Char) :
    (line.count '\'' % 2 = 0 → ∀ text, words (line ++ ' ' :: '.' :: text) = words line) ∧
    words ([' '].intercalate (words line)) = words line ∧
    (∀ word ∈ words line, word ≠ [] ∧ word.head? ≠ some '.' ∧
      ∀ before c after, word = before ++ c :: after → Text.isBlank c = true →
        before.count '\'' % 2 = 1) ∧
    (words line).IsChain fun word next => word.getLast? ≠ some ',' ∧ next.head? ≠ some ',' := by
  obtain ⟨tidy, uncommented, apart⟩ := tidy_words line
  refine ⟨fun even => words_append_comment (balanced_iff.mpr even), words_unwords line,
    fun word member => ⟨tidy.nonempty word member, uncommented word member,
      fun before c after => (tidy.solid word member).odd⟩,
    apart.imp fun word next => not_or.mp⟩

/-- A line with a comma between blanks and a quoted text with blanks, dots and commas, behind which a
comment stands that opens a quote. -/
theorem words_exact_quoted :
    let line := "EOF BYTE C'. , E' , X".toList
    line.count '\'' % 2 = 0 ∧
      words (line ++ " . it's 'so".toList) =
        ["EOF".toList, "BYTE".toList, "C'. , E',X".toList] := by
  intro line
  have even : line.count '\'' % 2 = 0 := by decide
  exact ⟨even, ((words_exact line).1 even " it's 'so".toList).trans (by decide +kernel)⟩

end Sicxe.Statement
