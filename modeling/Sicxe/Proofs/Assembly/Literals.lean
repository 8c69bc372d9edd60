import Sicxe.Proofs.Assembly.Declarations
import Sicxe.Proofs.Assembly.LiteralWord
import Sicxe.Proofs.Assembly.Module

/-!
# Literals

A literal that is used waits in the pool until the next `LTORG` or the `END`, where a line is
generated for it. Its entry stays, so that a later use of the same text finds it placed. The entries
of a pool are therefore those of placed literals, in the order of their lines, and behind them those
of the literals that still wait (`LiteralPool.entriesOf`), and nothing waits behind an `END`.

* `Placing.Pooled`: what every statement keeps of the pool and the generated lines.
* `Placement.LiteralsPlaced`: what has become of the literals of a program.
* `Placement.literalsPlaced`: **every literal that is used is placed once and holds its value.**
-/

namespace Sicxe

/-- Every member of a list has its partner in a list that is related to it. -/
theorem exists_of_forall₂ {α β : Type} {relation : α → β → Prop} {first : List α}
    {second : List β} (related : List.Forall₂ relation first second) :
    ∀ item ∈ first, ∃ other ∈ second, relation item other := by
  induction related with
  | nil => exact fun _ member => by cases member
  | cons head _ ih =>
    intro item member
    rcases List.mem_cons.mp member with rfl | member
    · exact ⟨_, List.mem_cons_self, head⟩
    · obtain ⟨other, isOther, related⟩ := ih item member
      exact ⟨other, List.mem_cons_of_mem _ isOther, related⟩

/-- A statement that is a memory reference to a literal. -/
def Statement.UsesLiteral (statement : Statement) (literal : String) : Prop :=
  ∃ found extended, statement.command = .operation found extended ∧
    found.UsesLiteral statement.operand literal

/-- A statement uses one literal at most. -/
theorem Statement.UsesLiteral.unique {statement : Statement} {literal other : String}
    (uses : statement.UsesLiteral literal) (usesOther : statement.UsesLiteral other) :
    literal = other := by
  obtain ⟨_, _, _, _, text, memory, given, parsed, target⟩ := uses
  obtain ⟨_, _, _, _, _, _, again, parsedAgain, targetAgain⟩ := usesOther
  cases given.symm.trans again
  cases parsed.symm.trans parsedAgain
  exact Target.literal.inj (target.symm.trans targetAgain)

/-- Only operations use literals. -/
theorem Statement.not_usesLiteral {statement : Statement} {found : Directive}
    (isDirective : statement.command = .directive found) (literal : String) :
    ¬ statement.UsesLiteral literal := by
  rintro ⟨_, _, isOperation, _⟩
  cases isDirective.symm.trans isOperation

namespace PlacedLine

/-- The statement of the line is a memory reference to a literal. -/
def UsesLiteral (line : PlacedLine) (literal : String) : Prop :=
  line.statement.UsesLiteral literal

/-- The line was generated for a literal: source lines have the numbers from 1 on. -/
def isGenerated (line : PlacedLine) : Bool :=
  line.line == 0

/-- The line holds a literal at its address. -/
def HoldsLiteral (line : PlacedLine) (entry : String × Nat) : Prop :=
  ∃ literal, Literal.parse entry.1 = .ok literal ∧
    line = LiteralPool.dataLine entry.1 entry.2 literal.size

theorem HoldsLiteral.isGenerated {line : PlacedLine} {entry : String × Nat}
    (holds : line.HoldsLiteral entry) : line.isGenerated = true := by
  obtain ⟨_, _, rfl⟩ := holds
  rfl

theorem HoldsLiteral.not_usesLiteral {line : PlacedLine} {entry : String × Nat}
    (holds : line.HoldsLiteral entry) (literal : String) : ¬ line.UsesLiteral literal := by
  obtain ⟨_, _, rfl⟩ := holds
  rintro ⟨_, _, isOperation, _⟩
  cases isOperation

end PlacedLine

/-! ### The pool -/

namespace LiteralPool

variable {placed fresh : List (String × Nat)} {waiting : List String} {counter : Nat}

/-- The entries of placed literals and of literals that wait. -/
def entriesOf (placed : List (String × Nat)) (waiting : List String) :
    List (String × Option Nat) :=
  placed.map (fun entry => (entry.1, some entry.2)) ++ waiting.map fun text => (text, none)

theorem addresses_entriesOf (placed : List (String × Nat)) :
    addresses ⟨entriesOf placed []⟩ = placed := by
  simp [addresses, entriesOf, List.filterMap_map]

/-- **A literal waits from its first use on**, and one that is known stays where it is. -/
theorem add_entriesOf (placed : List (String × Nat)) (waiting : List String) (literal : String) :
    ∃ later, add ⟨entriesOf placed waiting⟩ literal = ⟨entriesOf placed later⟩ ∧
      placed.map Prod.fst ++ later = addName (placed.map Prod.fst ++ waiting) literal := by
  have known : ((entriesOf placed waiting).any fun entry => entry.1 == literal) =
      (placed.map Prod.fst ++ waiting).contains literal := by
    rw [Bool.eq_iff_iff, List.any_eq_true, List.contains_iff_mem]
    simp [entriesOf, or_and_right, exists_or]
  unfold add addName
  rw [known]
  split
  · exact ⟨waiting, rfl, rfl⟩
  · exact ⟨waiting ++ [literal], by simp [entriesOf], (List.append_assoc _ _ _).symm⟩

/-- Placed literals keep their places. -/
theorem flushEntries_placed (placed : List (String × Nat)) (rest : List (String × Option Nat)) :
    flushEntries counter (placed.map (fun entry => (entry.1, some entry.2)) ++ rest) =
      { flushEntries counter rest with
        entries := placed.map (fun entry => (entry.1, some entry.2)) ++
          (flushEntries counter rest).entries } := by
  induction placed with
  | nil => rfl
  | cons entry placed ih =>
    rw [List.map_cons, List.cons_append, flushEntries, ih]
    rfl

/-- Every literal that waits gets a line of its own. -/
theorem flushEntries_waiting
    (complete : (flushEntries counter (waiting.map fun text => (text, none))).error = none) :
    ∃ fresh, (flushEntries counter (waiting.map fun text => (text, none))).entries =
        entriesOf fresh [] ∧
      fresh.map Prod.fst = waiting ∧
      List.Forall₂ PlacedLine.HoldsLiteral
        (flushEntries counter (waiting.map fun text => (text, none))).lines fresh := by
  induction waiting generalizing counter with
  | nil => exact ⟨[], rfl, rfl, .nil⟩
  | cons text rest ih =>
    rw [List.map_cons, flushEntries] at complete ⊢
    cases parsed : Literal.parse text with
    | error error =>
      rw [parsed] at complete
      cases complete
    | ok literal =>
      rw [parsed] at complete
      obtain ⟨fresh, entries, texts, lines⟩ := ih complete
      refine ⟨(text, counter) :: fresh, ?_, by rw [List.map_cons, texts],
        .cons ⟨literal, parsed, rfl⟩ lines⟩
      dsimp only
      rw [entries]
      rfl

/-- **A flush places every literal that waits**, one behind the other, and no other. -/
theorem flush_entriesOf (complete : (flush ⟨entriesOf placed waiting⟩ counter).error = none) :
    ∃ fresh, (flush ⟨entriesOf placed waiting⟩ counter).entries = entriesOf (placed ++ fresh) [] ∧
      fresh.map Prod.fst = waiting ∧
      List.Forall₂ PlacedLine.HoldsLiteral
        (flush ⟨entriesOf placed waiting⟩ counter).lines fresh := by
  unfold flush at complete ⊢
  dsimp only at complete ⊢
  unfold entriesOf at complete ⊢
  rw [flushEntries_placed] at complete ⊢
  obtain ⟨fresh, entries, texts, lines⟩ := flushEntries_waiting complete
  refine ⟨fresh, ?_, texts, lines⟩
  rw [entries]
  simp [entriesOf]

end LiteralPool

namespace Placing

open LiteralPool (entriesOf)

variable {placing middle next : Placing} {line : Nat} {first : Bool} {statement : Statement}

/-! ### What a statement does to the pool -/

theorem pool_reserve {size : Nat} (succeeded : middle.reserve line statement size = .ok next)
    (same : middle.pool = placing.pool) : next.pool = placing.pool := by
  obtain ⟨_, rfl⟩ := checkCounter_eq_ok_iff.mp succeeded
  exact same

theorem defineLabel_keeps (succeeded : placing.defineLabel statement = .ok next) :
    next.pool = placing.pool ∧ next.counter = placing.counter ∧ next.lines = placing.lines := by
  obtain ⟨_, rfl⟩ | ⟨_, _, _, _, _, rfl⟩ := defineLabel_cases succeeded
  · exact ⟨rfl, rfl, rfl⟩
  · exact ⟨rfl, rfl, rfl⟩

/-- A list of names leaves the pool as it is if each name does. -/
theorem pool_foldlM {step : Placing → List Char → Except AssemblyError Placing}
    (one : ∀ {placing next : Placing} {name : List Char},
      step placing name = .ok next → next.pool = placing.pool)
    {names : List (List Char)} (succeeded : names.foldlM step placing = .ok next) :
    next.pool = placing.pool := by
  induction names generalizing placing with
  | nil => rw [foldlM_nil_eq_ok_iff.mp succeeded]
  | cons name rest ih =>
    obtain ⟨middle, head, tail⟩ := foldlM_cons_eq_ok_iff.mp succeeded
    exact (ih tail).trans (one head)

theorem pool_exportName {name : List Char} (succeeded : placing.exportName name = .ok next) :
    next.pool = placing.pool := by
  obtain ⟨_, rfl⟩ := exportName_cases succeeded
  rfl

theorem pool_importName {name : List Char} (succeeded : placing.importName name = .ok next) :
    next.pool = placing.pool := by
  obtain ⟨_, _, rfl⟩ := importName_cases succeeded
  rfl

theorem pool_placeStart (succeeded : placing.placeStart line first statement = .ok next) :
    next.pool = placing.pool := by
  obtain ⟨_, _, _, ⟨_, rfl⟩ | ⟨_, _, _, _, rfl⟩⟩ := placeStart_cases succeeded
  · rfl
  · rfl

theorem pool_placeEqual (succeeded : placing.placeEqual line statement = .ok next) :
    next.pool = placing.pool := by
  obtain ⟨_, _, _, _, _, _, _, _, _, rfl⟩ := placeEqual_cases succeeded
  rfl

theorem pool_placeReserve {unit : Nat}
    (succeeded : placing.placeReserve line statement unit = .ok next) :
    next.pool = placing.pool := by
  obtain ⟨labelled, _, define, _, _, _, succeeded⟩ := placeReserve_cases succeeded
  exact pool_reserve succeeded (defineLabel_keeps define).1

/-- The pool takes in the literal that a statement uses, if any. -/
def Pools (placing : Placing) (statement : Statement) (next : Placing) : Prop :=
  (∃ literal, statement.UsesLiteral literal ∧ next.pool = placing.pool.add literal) ∨
    (∀ literal, ¬ statement.UsesLiteral literal) ∧ next.pool = placing.pool

theorem pools_of_directive {found : Directive} (isDirective : statement.command = .directive found)
    (same : next.pool = placing.pool) : placing.Pools statement next :=
  .inr ⟨Statement.not_usesLiteral isDirective, same⟩

theorem pools_placeOperation {found : Operation} {extended : Bool}
    (isOperation : statement.command = .operation found extended)
    (succeeded : placing.placeOperation line statement found extended = .ok next) :
    placing.Pools statement next := by
  obtain ⟨labelled, define, succeeded⟩ := bind_eq_ok_iff.mp succeeded
  obtain ⟨pooled, added, reserved⟩ := bind_eq_ok_iff.mp succeeded
  have same := (defineLabel_keeps define).1
  obtain ⟨literal, uses, rfl⟩ | ⟨without, rfl⟩ := addLiteral_cases added
  · refine .inl ⟨literal, ⟨found, extended, isOperation, uses⟩, ?_⟩
    rw [← same]
    exact (pool_reserve reserved rfl :)
  · refine .inr ⟨?_, pool_reserve reserved same⟩
    rintro literal ⟨_, _, again, uses⟩
    cases isOperation.symm.trans again
    exact without literal uses

/-- **Every statement but `LTORG` and `END` leaves the pool as it is, or puts the literal in that it
uses.** -/
theorem pools_place (notPool : statement.command ≠ .directive .LTORG)
    (notEnd : statement.command ≠ .directive .END)
    (succeeded : placing.place line first statement = .ok next) :
    placing.Pools statement next := by
  unfold place at succeeded
  dsimp only at succeeded
  split at succeeded
  all_goals rename_i command
  · exact pools_of_directive command (pool_placeStart succeeded)
  · exact absurd command notEnd
  · obtain ⟨middle, published, succeeded⟩ := bind_eq_ok_iff.mp succeeded
    exact pools_of_directive command
      (pool_reserve succeeded (pool_foldlM pool_exportName published))
  · obtain ⟨middle, brought, succeeded⟩ := bind_eq_ok_iff.mp succeeded
    exact pools_of_directive command (pool_reserve succeeded (pool_foldlM pool_importName brought))
  · exact pools_of_directive command (pool_placeEqual succeeded)
  · exact absurd command notPool
  · obtain ⟨middle, labelled, succeeded⟩ := bind_eq_ok_iff.mp succeeded
    exact pools_of_directive command (pool_reserve succeeded (defineLabel_keeps labelled).1)
  · obtain ⟨middle, labelled, succeeded⟩ := bind_eq_ok_iff.mp succeeded
    exact pools_of_directive command (pool_reserve succeeded (defineLabel_keeps labelled).1)
  · obtain ⟨middle, labelled, succeeded⟩ := bind_eq_ok_iff.mp succeeded
    exact pools_of_directive command (pool_reserve succeeded (defineLabel_keeps labelled).1)
  · obtain ⟨middle, labelled, succeeded⟩ := bind_eq_ok_iff.mp succeeded
    obtain ⟨bytes, _, succeeded⟩ := bind_eq_ok_iff.mp succeeded
    exact pools_of_directive command (pool_reserve succeeded (defineLabel_keeps labelled).1)
  · exact pools_of_directive command (pool_placeReserve succeeded)
  · exact pools_of_directive command (pool_placeReserve succeeded)
  · exact pools_placeOperation command succeeded

/-- Every statement but `LTORG` and `END` adds its own line only. -/
theorem lines_place (notPool : statement.command ≠ .directive .LTORG)
    (notEnd : statement.command ≠ .directive .END)
    (succeeded : placing.place line first statement = .ok next) :
    ∃ address size, next.lines.toList = placing.lines.toList ++
      [⟨line, statement.label, statement.command, statement.operand, address, size⟩] := by
  cases place_cases succeeded with
  | start => exact ⟨_, _, lines_push _ _ _ _⟩
  | startNamed => exact ⟨_, _, lines_push _ _ _ _⟩
  | @reserve declared size _ declaration =>
    refine ⟨declared.counter, size, ?_⟩
    rw [lines_push, declaration.keeps.2.2.2]
  | flush isFlush =>
    rcases isFlush with isPool | isEnd
    · exact absurd isPool notPool
    · exact absurd isEnd notEnd

/-- A flush places the literals that wait and puts their lines behind the line of its statement. -/
structure Flushes (placing : Placing) (line : Nat) (statement : Statement) (next : Placing) :
    Prop where
  complete : (placing.pool.flush placing.counter).error = none
  pool : next.pool = ⟨(placing.pool.flush placing.counter).entries⟩
  lines : next.lines.toList = placing.lines.toList ++
    ⟨line, statement.label, statement.command, statement.operand, placing.counter, 0⟩ ::
      (placing.pool.flush placing.counter).lines

theorem flushes_flush (succeeded : placing.flush line statement = .ok next) :
    placing.Flushes line statement next := by
  obtain ⟨_, rfl, complete, _, rfl⟩ := flush_cases succeeded
  refine ⟨complete, rfl, ?_⟩
  have lines := lines_pool placing line statement (placing.pool.flush placing.counter).lines
  rw [List.append_assoc] at lines
  exact lines

/-- **`LTORG` and `END` flush the pool.** -/
theorem flushes_place
    (isFlush : statement.command = .directive .LTORG ∨ statement.command = .directive .END)
    (succeeded : placing.place line first statement = .ok next) :
    placing.Flushes line statement next := by
  unfold place at succeeded
  rcases isFlush with isPool | isEnd
  · rw [isPool] at succeeded
    obtain ⟨labelled, define, succeeded⟩ := bind_eq_ok_iff.mp succeeded
    obtain ⟨pool, counter, lines⟩ := defineLabel_keeps define
    obtain ⟨complete, flushed, added⟩ := flushes_flush succeeded
    rw [pool, counter] at complete flushed added
    rw [lines] at added
    exact ⟨complete, flushed, added⟩
  · rw [isEnd] at succeeded
    exact flushes_flush succeeded

/-! ### What is kept of the pool -/

/-- What every statement keeps of the pool and the generated lines. -/
structure Pooled (placing : Placing) (placed : List (String × Nat)) (waiting : List String) :
    Prop where
  pool : placing.pool = ⟨entriesOf placed waiting⟩
  distinct : (placed.map Prod.fst ++ waiting).Nodup
  used_iff : ∀ literal, literal ∈ placed.map Prod.fst ++ waiting ↔
    ∃ other ∈ placing.lines.toList, other.UsesLiteral literal
  generated : List.Forall₂ PlacedLine.HoldsLiteral
    (placing.lines.toList.filter PlacedLine.isGenerated) placed

variable {placed : List (String × Nat)} {waiting : List String}

/-- A line of the source is not generated. -/
theorem isGenerated_eq_false (source : 0 < line) (address size : Nat) :
    PlacedLine.isGenerated
      ⟨line, statement.label, statement.command, statement.operand, address, size⟩ = false := by
  simp [PlacedLine.isGenerated]
  omega

/-- **A statement that does not flush lets its literal wait.** -/
theorem Pooled.pools (pooled : placing.Pooled placed waiting) (source : 0 < line)
    (notPool : statement.command ≠ .directive .LTORG)
    (notEnd : statement.command ≠ .directive .END)
    (succeeded : placing.place line first statement = .ok next) :
    ∃ waiting, next.Pooled placed waiting := by
  obtain ⟨address, size, lines⟩ := lines_place notPool notEnd succeeded
  have generated : next.lines.toList.filter PlacedLine.isGenerated =
      placing.lines.toList.filter PlacedLine.isGenerated := by
    simp [lines, isGenerated_eq_false source]
  have usedNext : ∀ literal, (∃ other ∈ next.lines.toList, other.UsesLiteral literal) ↔
      (∃ other ∈ placing.lines.toList, other.UsesLiteral literal) ∨
        statement.UsesLiteral literal := fun literal => by
    simp only [lines, List.mem_append, List.mem_singleton, or_and_right, exists_or,
      exists_eq_left]
    rfl
  rcases pools_place notPool notEnd succeeded with ⟨literal, uses, takes⟩ | ⟨without, keeps⟩
  · obtain ⟨later, added, texts⟩ := LiteralPool.add_entriesOf placed waiting literal
    rw [pooled.pool, added] at takes
    refine ⟨later, takes, texts ▸ nodup_addName pooled.distinct literal, fun other => ?_,
      generated ▸ pooled.generated⟩
    have isOther : statement.UsesLiteral other ↔ other = literal :=
      ⟨fun usesOther => usesOther.unique uses, fun same => same ▸ uses⟩
    rw [usedNext, ← pooled.used_iff, isOther, texts, mem_addName]
  · refine ⟨waiting, keeps.trans pooled.pool, pooled.distinct, fun other => ?_,
      generated ▸ pooled.generated⟩
    rw [usedNext, ← pooled.used_iff]
    simp [without other]

/-- **A statement that flushes leaves no literal waiting.** -/
theorem Pooled.flushes (pooled : placing.Pooled placed waiting) (source : 0 < line)
    (isFlush : statement.command = .directive .LTORG ∨ statement.command = .directive .END)
    (succeeded : placing.place line first statement = .ok next) :
    ∃ placed, next.Pooled placed [] := by
  obtain ⟨complete, pool, lines⟩ := flushes_place isFlush succeeded
  rw [pooled.pool] at complete pool lines
  obtain ⟨fresh, entries, texts, holds⟩ := LiteralPool.flush_entriesOf complete
  have isHeld := exists_of_forall₂ holds
  have same : (placed ++ fresh).map Prod.fst = placed.map Prod.fst ++ waiting := by
    rw [List.map_append, texts]
  have uses : ∀ literal, ¬ statement.UsesLiteral literal :=
    isFlush.elim Statement.not_usesLiteral Statement.not_usesLiteral
  refine ⟨placed ++ fresh, pool.trans (congrArg _ entries), ?_, fun literal => ?_, ?_⟩
  · rw [List.append_nil, same]
    exact pooled.distinct
  · rw [List.append_nil, same, pooled.used_iff, lines]
    constructor
    · rintro ⟨other, member, usesLiteral⟩
      exact ⟨other, List.mem_append_left _ member, usesLiteral⟩
    · rintro ⟨other, member, usesLiteral⟩
      rcases List.mem_append.mp member with old | new
      · exact ⟨other, old, usesLiteral⟩
      · rcases List.mem_cons.mp new with rfl | generated
        · exact absurd usesLiteral (uses literal)
        · obtain ⟨entry, _, holdsEntry⟩ := isHeld other generated
          exact absurd usesLiteral (holdsEntry.not_usesLiteral literal)
  · rw [lines, List.filter_append, List.filter_cons, isGenerated_eq_false source,
      if_neg Bool.false_ne_true, List.filter_eq_self.mpr fun other generated =>
        (isHeld other generated).elim fun _ holdsEntry => holdsEntry.2.isGenerated]
    exact List.rel_append pooled.generated holds

theorem pooled_empty : Pooled {} [] [] :=
  ⟨rfl, .nil, fun _ => by simp, .nil⟩

/-- **Every statement keeps what is said of the pool**, whether it flushes or not. -/
theorem Pooled.place (pooled : placing.Pooled placed waiting) (source : 0 < line)
    (succeeded : placing.place line first statement = .ok next) :
    ∃ placed waiting, next.Pooled placed waiting := by
  by_cases isFlush : statement.command = .directive .LTORG ∨ statement.command = .directive .END
  · obtain ⟨placed, pooled⟩ := pooled.flushes source isFlush succeeded
    exact ⟨placed, [], pooled⟩
  · obtain ⟨notPool, notEnd⟩ := not_or.mp isFlush
    obtain ⟨waiting, pooled⟩ := pooled.pools source notPool notEnd succeeded
    exact ⟨placed, waiting, pooled⟩

end Placing

/-! ### The literals of a program -/

/-- In a list with distinct keys every entry is found by its key. -/
theorem lookup_of_mem {entries : List (String × Nat)} {text : String} {address : Nat}
    (distinct : (entries.map Prod.fst).Nodup) (member : (text, address) ∈ entries) :
    entries.lookup text = some address := by
  obtain ⟨before, after, rfl⟩ := List.append_of_mem member
  rw [List.map_append, List.map_cons] at distinct
  refine List.lookup_eq_some_iff.mpr ⟨before, after, rfl, fun other isBefore => ?_⟩
  have apart := (List.nodup_append.mp distinct).2.2 _ (List.mem_map_of_mem isBefore) text
    List.mem_cons_self
  simpa using Ne.symm apart

namespace Placement

variable {source : String} {placement : Placement} {object : Object}

/-- **What has become of the literals of a program.** -/
structure LiteralsPlaced (placement : Placement) : Prop where
  /-- No literal is placed twice. -/
  distinct : (placement.literals.map Prod.fst).Nodup
  /-- The literals that are placed are those that are used. -/
  used_iff : ∀ text, text ∈ placement.literals.map Prod.fst ↔
    ∃ line ∈ placement.lines, line.UsesLiteral text
  /-- A reference finds its literal. -/
  found : ∀ line ∈ placement.lines, ∀ text, line.UsesLiteral text →
    ∃ address, (text, address) ∈ placement.literals ∧
      placement.targetValue (.literal text) line.address = .ok (.address address)
  /-- One line is generated for each literal, at its address. -/
  generated : List.Forall₂ PlacedLine.HoldsLiteral
    (placement.lines.filter PlacedLine.isGenerated) placement.literals
  /-- No two lines share an address, whether they are generated or not. -/
  apart : placement.lines.Pairwise fun first second =>
    first.address + first.size ≤ second.address
  /-- The code holds the bytes of a literal at its address. -/
  contents : ∀ object, placement.toObject = .ok object →
    ∀ text address, (text, address) ∈ placement.literals →
      ∃ literal, Literal.parse text = .ok literal ∧ placement.start ≤ address ∧
        Bytes.slice object.code (address - placement.start) literal.size = literal.contents

/-- A finished placement comes from a program in which no literal waits. -/
theorem ofSource_pooled (succeeded : ofSource source = .ok placement) :
    ∃ (placing : Placing) (placed : List (String × Nat)), placing.Pooled placed [] ∧
      placement = placing.finish (Text.stringLines source) := by
  have isSource : ∀ {content : String} {line : Nat},
      (content, line) ∈ (Text.stringLines source).zipIdx 1 → 0 < line :=
    fun member => (List.mem_zipIdx member).1
  obtain ⟨earlier, placing, content, line, first, statement, ⟨placed, waiting, pooled⟩, member,
    isEnd, last, finished⟩ := ofSource_ends
      (motive := fun placing => ∃ placed waiting, placing.Pooled placed waiting)
      ⟨[], [], Placing.pooled_empty⟩
      (fun _ holds member _ _ succeeded => by
        obtain ⟨placed, waiting, pooled⟩ := holds
        exact pooled.place (isSource member) succeeded)
      succeeded
  obtain ⟨placed, pooled⟩ := pooled.flushes (isSource member) (.inr isEnd) last
  exact ⟨placing, placed, pooled, finished⟩

/-- The line of a literal is encoded as its bytes, which the code holds at the address. -/
theorem slice_of_holdsLiteral {text : String} {address : Nat} {line : PlacedLine}
    (succeeded : ofSource source = .ok placement) (made : placement.toObject = .ok object)
    (member : line ∈ placement.lines) (holds : line.HoldsLiteral (text, address)) :
    ∃ literal, Literal.parse text = .ok literal ∧ placement.start ≤ address ∧
      Bytes.slice object.code (address - placement.start) literal.size = literal.contents := by
  obtain ⟨literal, parsed, rfl⟩ := holds
  obtain ⟨emitted, assembled⟩ := toObject_assembled succeeded made
  obtain ⟨before, after, split⟩ := List.append_of_mem member
  obtain ⟨_, _, _, _, rfl, _, encodes⟩ := assembled.exists_split split
  cases LiteralPool.encodeLine_dataLine parsed encodes
  have slice := assembled.slice_at
  rw [literal.length_contents] at slice
  exact ⟨literal, parsed, assembled.offset_eq.1, slice⟩

/-- **Every literal that is used is placed once and holds its value**: a reference finds it before
and after any number of pools, one line is generated for it, which shares no address with another
line, and the code holds its bytes there. -/
theorem literalsPlaced (succeeded : ofSource source = .ok placement) :
    placement.LiteralsPlaced := by
  obtain ⟨placing, placed, pooled, finished⟩ := ofSource_pooled succeeded
  have literals : placement.literals = placed := by
    rw [finished]
    show placing.pool.addresses = placed
    rw [pooled.pool, LiteralPool.addresses_entriesOf]
  have lines : placement.lines = placing.lines.toList := by rw [finished]; rfl
  have distinct : (placement.literals.map Prod.fst).Nodup := by
    rw [literals, ← List.append_nil (placed.map Prod.fst)]
    exact pooled.distinct
  have used_iff : ∀ text, text ∈ placement.literals.map Prod.fst ↔
      ∃ line ∈ placement.lines, line.UsesLiteral text := fun text => by
    rw [literals, lines, ← pooled.used_iff, List.append_nil]
  have generated : List.Forall₂ PlacedLine.HoldsLiteral
      (placement.lines.filter PlacedLine.isGenerated) placement.literals := by
    rw [literals, lines]
    exact pooled.generated
  refine ⟨distinct, used_iff, fun line member text uses => ?_, generated,
    (follows succeeded).pairwise, fun object made text address isLiteral => ?_⟩
  · obtain ⟨⟨_, address⟩, isPlaced, rfl⟩ :=
      List.mem_map.mp ((used_iff text).mpr ⟨line, member, uses⟩)
    refine ⟨address, isPlaced, ?_⟩
    rw [targetValue, literalAddress?, lookup_of_mem distinct isPlaced]
  · obtain ⟨line, isGenerated, holds⟩ := exists_of_forall₂ generated.flip _ isLiteral
    exact slice_of_holdsLiteral succeeded made (List.mem_filter.mp isGenerated).1 holds

/-- A program that uses literals before, between and behind its pools. -/
def repeatedSource : String :=
  " LDA =C'EOF'\n LDX =X'05'\n LTORG\n +LDA =C'EOF'\n LDA =-1\n LTORG\n LDA =-1\n" ++
  " LDA =X'05'\n LDA =3\n LDA =-1\n END\n"

theorem literalsPlaced_repeatedSource :
    ∃ placement object, assemble repeatedSource = .ok (placement, object) ∧
      placement.LiteralsPlaced ∧
      placement.literals = [("=C'EOF'", 6), ("=X'05'", 9), ("=-1", 17), ("=3", 32)] ∧
      Bytes.slice object.code 17 3 = [0xFF, 0xFF, 0xFF] := by
  obtain ⟨⟨placement, object⟩, assembled, parts⟩ := exists_ok_of_map
    (show ((assemble repeatedSource).map fun made =>
        (made.1.literals, Bytes.slice made.2.code 17 3)).toOption =
      some ([("=C'EOF'", 6), ("=X'05'", 9), ("=-1", 17), ("=3", 32)], [0xFF, 0xFF, 0xFF]) by
        decide +kernel)
  obtain ⟨literals, bytes⟩ := Prod.mk.inj parts
  exact ⟨placement, object, assembled, literalsPlaced (assemble_assembled assembled).1, literals,
    bytes⟩

end Placement

end Sicxe
